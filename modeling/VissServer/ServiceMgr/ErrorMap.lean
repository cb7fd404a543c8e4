import VissServer.ServiceMgr.Loop
import VissServer.Utils.ErrorMessages

/-!
The error response map in the handling of a request: what the service manager answers
does not depend on it, except for one error response, which is made with it.
-/
namespace VissServer.ServiceMgr

open Go Utils

def State.withErrors (s : State) (errorResponseMap : GoMap Json) : State :=
  { s with errorResponseMap }

def Ending.withErrors (errorResponseMap : GoMap Json) : Ending → Ending
  | .back s => .back (s.withErrors errorResponseMap)
  | .panic => .panic
  | .hang => .hang

section Frames

variable (s : State) (M : GoMap Json)

@[simp] theorem tickerSlot_withErrors (id : ℤ) : tickerSlot (s.withErrors M) id = tickerSlot s id :=
  tickerSlot_congr fun _ => Iff.rfl

theorem activateInterval_withErrors (id interval : ℤ) :
    activateInterval (s.withErrors M) id interval =
      (activateInterval s id interval).map fun s => s.withErrors M := by
  unfold activateInterval
  rw [tickerSlot_withErrors]
  cases tickerSlot s 0 with
  | none => rfl
  | some i =>
    dsimp only
    split <;> rfl

theorem deactivateInterval_withErrors (id : ℤ) :
    deactivateInterval (s.withErrors M) id =
      (deactivateInterval s id).map fun s => s.withErrors M := by
  unfold deactivateInterval
  rw [tickerSlot_withErrors]
  cases tickerSlot s id with
  | none => rfl
  | some i =>
    have hticker : (s.withErrors M).subscriptionTicker i = s.subscriptionTicker i := rfl
    simp only [Option.bind_eq_bind, Option.bind_some, hticker]
    cases s.subscriptionTicker i <;> rfl

theorem stopTrigger_withErrors (e : SubscriptionState) :
    stopTrigger (s.withErrors M) e = (stopTrigger s e).map fun s => s.withErrors M := by
  unfold stopTrigger
  split
  · exact deactivateInterval_withErrors s M _
  · split <;> rfl

theorem deactivateEntry_withErrors (index : ℕ) (e : SubscriptionState) :
    deactivateEntry (s.withErrors M) index e =
      (deactivateEntry s index e).map fun s => s.withErrors M := by
  unfold deactivateEntry
  rw [stopTrigger_withErrors, Option.map_map, Option.map_map]
  congr 1
  funext s
  dsimp only [Function.comp]
  split <;> rfl

theorem deactivateSubscriptionId_withErrors (id : ℤ) :
    deactivateSubscriptionId (s.withErrors M) id =
      (deactivateSubscriptionId s id).map (Option.map fun s => s.withErrors M) := by
  have hlist : (s.withErrors M).subscriptionList = s.subscriptionList := rfl
  unfold deactivateSubscriptionId
  rw [hlist]
  cases getSubcriptionStateIndex id s.subscriptionList with
  | none => rfl
  | some index =>
    dsimp only
    cases s.subscriptionList[index]? with
    | none => rfl
    | some e =>
      simp only [Option.bind_eq_bind, Option.bind_some, deactivateEntry_withErrors]
      cases deactivateEntry s index e <;> rfl

theorem scanAndRemoveListItem_withErrors (routerId : GoString) :
    scanAndRemoveListItem (s.withErrors M) routerId =
      (scanAndRemoveListItem s routerId).map fun r => (r.1, r.2.withErrors M) := by
  have hlist : (s.withErrors M).subscriptionList = s.subscriptionList := rfl
  unfold scanAndRemoveListItem
  rw [hlist]
  cases s.subscriptionList.find? fun e => e.routerId = routerId with
  | none => rfl
  | some e =>
    simp only [deactivateSubscriptionId_withErrors]
    cases deactivateSubscriptionId s e.subscriptionId with
    | none => rfl
    | some r => cases r <;> rfl

theorem killLoop_withErrors (routerId : GoString) (passes : ℕ) :
    killLoop routerId passes (s.withErrors M) = (killLoop routerId passes s).withErrors M := by
  induction passes generalizing s with
  | zero => rfl
  | succ passes ih =>
    rw [killLoop, killLoop, scanAndRemoveListItem_withErrors]
    cases scanAndRemoveListItem s routerId with
    | none => rfl
    | some r =>
      obtain ⟨removed, s₁⟩ := r
      cases removed with
      | false => rfl
      | true => exact ih s₁

theorem activateIfIntervalOrCL_withErrors (filterList : List FilterObject) (id : ℤ)
    (paths : List GoString) :
    activateIfIntervalOrCL (s.withErrors M) filterList id paths =
      (activateIfIntervalOrCL s filterList id paths).map fun s => s.withErrors M := by
  induction filterList with
  | nil => rfl
  | cons f filterList ih =>
    rw [activateIfIntervalOrCL, activateIfIntervalOrCL]
    split
    · dsimp only
      split
      · exact activateInterval_withErrors s M _ _
      · rfl
    · split
      · rfl
      · exact ih

theorem addSubscription_withErrors (m : Moment) (requestMap : GoMap Json) (routerId : GoString)
    (paths : List GoString) (filterList : List FilterObject) :
    addSubscription m (s.withErrors M) requestMap routerId paths filterList =
      (addSubscription m s requestMap routerId paths filterList).map
        fun r => (r.1.withErrors M, r.2) := by
  unfold addSubscription
  cases gatingIdMember requestMap with
  | none => rfl
  | some gatingId =>
    cases paths with
    | nil => rfl
    | cons path paths =>
      let entry : SubscriptionState :=
        { subscriptionId := s.subscriptionId, routerId, path := path :: paths, filterList,
          latestDataPoint := m.vehicleData path, gatingId }
      let added : State := { s with subscriptionList := s.subscriptionList ++ [entry] }
      change (activateIfIntervalOrCL (added.withErrors M) filterList s.subscriptionId
        (path :: paths)).bind _ = Option.map _ ((activateIfIntervalOrCL added filterList
          s.subscriptionId (path :: paths)).bind _)
      rw [activateIfIntervalOrCL_withErrors, Option.bind_map, Option.map_bind]
      rfl

end Frames

/-- The map of the request that an error response to it is made for. -/
def errorRequestMap (s : State) (requestMap : GoMap Json) : GoMap Json :=
  match actionOf requestMap, asString (valueAt requestMap (str "gatingId")) with
  | .cancelSubscription, some gatingId =>
      let (routerId, subscriptionId) := getSubscriptionData s.subscriptionList gatingId
      (((requestMap.set (str "RouterId") (.str routerId)).set (str "action")
        (.str (str "subscription"))).set (str "requestId") .null).set (str "subscriptionId")
          (.str subscriptionId)
  | _, _ => requestMap

/-- How the handling of a request depends on the error response map. -/
inductive UsesErrors (ts : GoString) (reqMap : GoMap Json) (handled : GoMap Json → Handled) : Prop
  | quiet (answers : List GoString) (ending : Ending)
      (h : ∀ M, handled M = ⟨answers, ending.withErrors M⟩)
  | error (errorListIndex : Fin 8) (altErrorMessage : GoString) (answers : List GoString)
      (ending : Ending)
      (h : ∀ M, handled M = ⟨errorMessage ts reqMap M errorListIndex altErrorMessage :: answers,
        ending.withErrors (setErrorResponse ts reqMap M errorListIndex altErrorMessage)⟩)

section Handlers

variable {cfg : Config} {m : Moment} {s : State} {requestMap : GoMap Json}

theorem Handled.once_withErrors (r : MayPanic (State × GoString)) (M : GoMap Json) :
    Handled.once (r.map fun p => (p.1.withErrors M, p.2)) =
      ⟨(Handled.once r).answers, (Handled.once r).ending.withErrors M⟩ := by
  cases r <;> rfl

/-- A handler that makes no error response. -/
theorem UsesErrors.of_map {ts : GoString} {reqMap : GoMap Json}
    {result : GoMap Json → MayPanic (State × GoString)} (r : MayPanic (State × GoString))
    (h : ∀ M, result M = r.map fun p => (p.1.withErrors M, p.2)) :
    UsesErrors ts reqMap fun M => .once (result M) := by
  refine .quiet (Handled.once r).answers (Handled.once r).ending fun M => ?_
  rw [h, Handled.once_withErrors]

/-- A handler that makes an error response and nothing else. -/
theorem UsesErrors.of_errorAnswer {result : GoMap Json → MayPanic (State × GoString)}
    (errorListIndex : Fin 8) (altErrorMessage : GoString)
    (h : ∀ M, result M =
      some (errorAnswer m (s.withErrors M) requestMap errorListIndex altErrorMessage)) :
    UsesErrors m.rfcTime requestMap fun M => .once (result M) := by
  refine .error errorListIndex altErrorMessage [] (.back s) fun M => ?_
  rw [h]
  rfl

theorem setRequest_usesErrors : UsesErrors m.rfcTime requestMap fun M =>
    .once (setRequest m (s.withErrors M) requestMap) := by
  unfold setRequest
  cases asString (valueAt requestMap (str "path")) with
  | none => exact .of_map none fun _ => rfl
  | some path =>
    simp only [Option.bind_eq_bind, Option.bind_some]
    split
    · exact .of_errorAnswer 1 [] fun _ => rfl
    · cases asString (valueAt requestMap (str "value")) with
      | none => exact .of_map none fun _ => rfl
      | some value =>
        simp only [Option.bind_some]
        cases m.setVehicleData path value with
        | none => exact .of_map none fun _ => rfl
        | some ts =>
          simp only [Option.bind_some]
          split
          · exact .of_errorAnswer 7 [] fun _ => rfl
          · exact .of_map (some (s, _)) fun _ => rfl

theorem dataAnswer_usesErrors (pathArray : List GoString) (filterList : List FilterObject) :
    UsesErrors m.rfcTime requestMap fun M =>
      .once (dataAnswer cfg m (s.withErrors M) requestMap pathArray filterList) := by
  unfold dataAnswer
  cases getDataPack cfg m pathArray filterList with
  | none => exact .of_map none fun _ => rfl
  | some dataPack =>
    simp only [Option.bind_eq_bind, Option.bind_some]
    split
    · exact .of_errorAnswer 6 [] fun _ => rfl
    · cases addPackage (finalizeMessage (responseMapOf m requestMap)) (str "data") dataPack with
      | none => exact .of_map none fun _ => rfl
      | some message => exact .of_map (some (s, message)) fun _ => rfl

theorem getRequest_usesErrors : UsesErrors m.rfcTime requestMap fun M =>
    .once (getRequest cfg m (s.withErrors M) requestMap) := by
  unfold getRequest
  cases asString (valueAt requestMap (str "path")) with
  | none => exact .of_map none fun _ => rfl
  | some path =>
    simp only [Option.bind_eq_bind, Option.bind_some]
    split
    · exact .of_errorAnswer 1 [] fun _ => rfl
    · split
      · exact dataAnswer_usesErrors _ _
      · exact .of_errorAnswer 0 [] fun _ => rfl
      · split
        · cases addPackage (finalizeMessage (responseMapOf m requestMap)) (str "metadata")
              serverCapabilities with
          | none => exact .of_map none fun _ => rfl
          | some message => exact .of_map (some (s, message)) fun _ => rfl
        · exact dataAnswer_usesErrors _ _

theorem subscribeRequest_usesErrors : UsesErrors m.rfcTime requestMap fun M =>
    subscribeRequest m (s.withErrors M) requestMap := by
  unfold subscribeRequest
  cases asString (valueAt requestMap (str "RouterId")) with
  | none => exact .quiet [] .panic fun _ => rfl
  | some routerId =>
    cases asString (valueAt requestMap (str "path")) with
    | none => exact .quiet [] .panic fun _ => rfl
    | some path =>
      dsimp only
      cases filterMember requestMap with
      | none => exact .of_errorAnswer 0 [] fun _ => rfl
      | some filter =>
        dsimp only
        cases unpackFilter m.range filter with
        | nil =>
          -- the error response is made first, then the subscription
          let rest := Handled.once
            (addSubscription m s requestMap routerId ((unpackPaths path).getD []) [])
          refine .error 1 [] rest.answers rest.ending fun M => ?_
          have hrest := Handled.once_withErrors
            (addSubscription m s requestMap routerId ((unpackPaths path).getD []) [])
            (setErrorResponse m.rfcTime requestMap M 1 [])
          rw [← addSubscription_withErrors] at hrest
          exact congrArg (fun rest : Handled => (⟨errorMessage m.rfcTime requestMap M 1 [] ::
            rest.answers, rest.ending⟩ : Handled)) hrest
        | cons f filterList =>
          exact .of_map _ fun M => addSubscription_withErrors s M m requestMap _ _ _

theorem unsubscribeRequest_usesErrors : UsesErrors m.rfcTime requestMap fun M =>
    .once (unsubscribeRequest m (s.withErrors M) requestMap) := by
  unfold unsubscribeRequest
  cases asString (valueAt requestMap (str "subscriptionId")) with
  | none => exact .of_errorAnswer 1 [] fun _ => rfl
  | some id =>
    simp only [deactivateSubscription, deactivateSubscriptionId_withErrors]
    cases deactivateSubscriptionId s (atoiIgnoringError id) with
    | none => exact .of_map none fun _ => rfl
    | some r =>
      cases r with
      | none => exact .of_errorAnswer 1 [] fun _ => rfl
      | some s' => exact .of_map (some (s', _)) fun _ => rfl

theorem killSubscriptions_usesErrors : UsesErrors m.rfcTime requestMap fun M =>
    killSubscriptions (s.withErrors M) requestMap := by
  unfold killSubscriptions
  cases asString (valueAt requestMap (str "RouterId")) with
  | none => exact .quiet [] .panic fun _ => rfl
  | some routerId =>
    refine .quiet [] (killLoop routerId (s.subscriptionList.length + 1) s) fun M => ?_
    rw [← killLoop_withErrors]
    rfl

theorem cancelSubscription_usesErrors (haction : actionOf requestMap = .cancelSubscription) :
    UsesErrors m.rfcTime (errorRequestMap s requestMap) fun M =>
      cancelSubscription m (s.withErrors M) requestMap := by
  unfold cancelSubscription errorRequestMap
  rw [haction]
  cases asString (valueAt requestMap (str "gatingId")) with
  | none => exact .quiet [] .panic fun _ => rfl
  | some gatingId =>
    have hlist : ∀ M, (s.withErrors M).subscriptionList = s.subscriptionList := fun _ => rfl
    simp only [hlist]
    split
    · exact .quiet [] (.back s) fun _ => rfl
    · have hscan := fun M => scanAndRemoveListItem_withErrors s M
        (getSubscriptionData s.subscriptionList gatingId).1
      cases hcases : scanAndRemoveListItem s
          (getSubscriptionData s.subscriptionList gatingId).1 with
      | none =>
        refine .error 2 (str "Token expired or consent cancelled.") [] .panic fun M => ?_
        simp only [errorAnswer, Handled.mk.injEq]
        refine ⟨rfl, ?_⟩
        split
        · rfl
        · next hsome =>
          have hboth := (hscan _).symm.trans hsome
          simp [hcases] at hboth
      | some r =>
        refine .error 2 (str "Token expired or consent cancelled.") [] (.back r.2) fun M => ?_
        simp only [errorAnswer, Handled.mk.injEq]
        refine ⟨rfl, ?_⟩
        split
        · next hnone =>
          have hboth := (hscan _).symm.trans hnone
          simp [hcases] at hboth
        · next hsome =>
          have hboth := (hscan _).symm.trans hsome
          rw [hcases] at hboth
          rw [← (Prod.mk.inj (Option.some.inj hboth)).2]
          rfl

/-- The answers to a request depend on earlier errors through one error response at most. -/
theorem handleRequest_usesErrors (cfg : Config) (m : Moment) (s : State) (request : GoString) :
    UsesErrors m.rfcTime (errorRequestMap s (requestMapOf request)) fun M =>
      handleRequest cfg m (s.withErrors M) request := by
  have hsame : actionOf (requestMapOf request) ≠ .cancelSubscription →
      errorRequestMap s (requestMapOf request) = requestMapOf request := by
    intro hne
    unfold errorRequestMap
    split
    · next h _ => exact absurd h hne
    · rfl
  unfold handleRequest
  dsimp only
  cases haction : actionOf (requestMapOf request) with
  | set =>
    rw [hsame (by rw [haction]; decide)]
    exact setRequest_usesErrors
  | get =>
    rw [hsame (by rw [haction]; decide)]
    exact getRequest_usesErrors
  | subscribe =>
    rw [hsame (by rw [haction]; decide)]
    exact subscribeRequest_usesErrors
  | unsubscribe =>
    rw [hsame (by rw [haction]; decide)]
    exact unsubscribeRequest_usesErrors
  | killSubscriptions =>
    rw [hsame (by rw [haction]; decide)]
    exact killSubscriptions_usesErrors
  | cancelSubscription => exact cancelSubscription_usesErrors haction
  | other =>
    rw [hsame (by rw [haction]; decide)]
    exact .of_errorAnswer 1 [] fun _ => rfl

end Handlers

section Triggers

variable (cfg : Config) (m : Moment) (s : State) (M : GoMap Json)

theorem intervalNotification_withErrors (id : ℤ) :
    intervalNotification cfg m (s.withErrors M) id =
      (intervalNotification cfg m s id).map fun r => (r.1.withErrors M, r.2) := by
  have hlist : (s.withErrors M).subscriptionList = s.subscriptionList := rfl
  unfold intervalNotification
  rw [hlist]
  cases getSubcriptionStateIndex id s.subscriptionList with
  | none => rfl
  | some index =>
    simp only [Option.bind_eq_bind, Option.bind_some]
    cases s.subscriptionList[index]? with
    | none => rfl
    | some e =>
      simp only [Option.bind_some]
      cases getDataPack cfg m e.path [] with
      | none => rfl
      | some dataPack =>
        simp only [Option.bind_some]
        cases notification m e dataPack <;> rfl

theorem curveLoggingNotification_withErrors (id : ℤ) (dataPack : GoString) :
    curveLoggingNotification m (s.withErrors M) id dataPack =
      (curveLoggingNotification m s id dataPack).map fun r => (r.1.withErrors M, r.2) := by
  have hlist : (s.withErrors M).subscriptionList = s.subscriptionList := rfl
  unfold curveLoggingNotification
  rw [hlist]
  cases getSubcriptionStateIndex id s.subscriptionList with
  | none => rfl
  | some index =>
    have hcount : (countPack (s.withErrors M) index).subscriptionList =
      (countPack s index).subscriptionList := rfl
    have hclose : (countPack (s.withErrors M) index).closeClSubId =
      (countPack s index).closeClSubId := rfl
    simp only [Option.bind_eq_bind, Option.bind_some, hcount, hclose]
    cases (countPack s index).subscriptionList[index]? with
    | none => rfl
    | some e =>
      simp only [Option.bind_some]
      by_cases hlast : id = (countPack s index).closeClSubId ∧ e.subscriptionThreads = 0
      · simp only [if_pos hlast]
        cases (removeFromsubscriptionList (countPack s index).subscriptionList index)[index]? with
        | none => rfl
        | some e =>
          simp only [Option.bind_some]
          cases notification m e dataPack <;> rfl
      · simp only [if_neg hlast, hcount]
        cases (countPack s index).subscriptionList[index]? with
        | none => rfl
        | some e =>
          simp only [Option.bind_some]
          cases notification m e dataPack <;> rfl

/-- No other pass of the loop uses the error response map. -/
theorem handleTrigger_withErrors (e : Event) : handleTrigger cfg m (s.withErrors M) e =
    (handleTrigger cfg m s e).map fun r => (r.1.withErrors M, r.2) := by
  cases e with
  | request request => rfl
  | dummyTick => rfl
  | interval id => exact intervalNotification_withErrors cfg m s M id
  | clPack id dataPack => exact curveLoggingNotification_withErrors m s M id dataPack
  | subscriptTick =>
    have hlist : (s.withErrors M).subscriptionList = s.subscriptionList := rfl
    unfold handleTrigger
    rw [hlist]
    cases checkEntries cfg m s.subscriptionList <;> rfl
  | capture =>
    simp only [handleTrigger]
    by_cases hsession : s.curveLoggingServers ≠ [] ∧ s.numOfClSessions ≤ MAXCLSESSIONS
    · rw [if_pos hsession]
      exact if_pos hsession
    · rw [if_neg hsession]
      exact if_neg hsession

end Triggers

end VissServer.ServiceMgr
