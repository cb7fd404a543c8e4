import VissServer.ServiceMgr.Loop

/-!
How often a request is answered on the data channel. The condition under which it is
answered exactly once is read off the request and the state before it, arm by arm of the
request switch.
-/
namespace VissServer.ServiceMgr

open Go Utils Runs

theorem Handled.length_once (r : MayPanic (State × GoString)) :
    (Handled.once r).answers.length = 1 ↔ r.isSome := by
  cases r with
  | none => simp [Handled.once]
  | some p => simp [Handled.once]

theorem slice_front (s : GoString) (k : ℤ) (hk : 0 ≤ k) :
    (slice s 0 (s.length - k)).isSome ↔ k ≤ s.length := by
  unfold slice
  split
  · next h => simpa using h.2.1
  · next h =>
    have hlt : ¬ k ≤ s.length := fun hle => h ⟨le_rfl, by omega, by omega⟩
    simpa using hlt

/-- A message can be cut in front of its last brace. -/
theorem finalizeMessage_front (responseMap : GoMap Json) : ∃ front,
    slice (finalizeMessage responseMap) 0 ((finalizeMessage responseMap).length - 1) =
      some front := by
  rw [← Option.isSome_iff_exists, slice_front _ 1 (by decide), finalizeMessage, marshal,
    List.length_cons]
  omega

theorem addPackage_finalizeMessage (responseMap : GoMap Json) (packName packValue : GoString) :
    (addPackage (finalizeMessage responseMap) packName packValue).isSome := by
  obtain ⟨front, hfront⟩ := finalizeMessage_front responseMap
  simp [addPackage, hfront]

/-- The history server replies for each path up to the first empty reply. -/
def HistoryReplies (m : Moment) (period : GoString) : List GoString → Prop
  | [] => True
  | path :: pathArray =>
      ∃ dp, dataPoint m (.history period) path = some dp ∧
        (dp = [] ∨ HistoryReplies m period pathArray)

/-- The data of the paths can be read, or history data are not supported. -/
def Readable (cfg : Config) (m : Moment) (pathArray : List GoString)
    (filterList : List FilterObject) : Prop :=
  match dataSource filterList with
  | .history period =>
      cfg.historySupport = false ∨ (pathArray ≠ [] ∧ HistoryReplies m period pathArray)
  | _ => pathArray ≠ []

theorem dataPoints_history (m : Moment) (period : GoString) (pathArray : List GoString) :
    (dataPoints m (.history period) pathArray).isSome ↔ HistoryReplies m period pathArray := by
  induction pathArray with
  | nil => simp [dataPoints, HistoryReplies]
  | cons path pathArray ih =>
    rw [dataPoints, HistoryReplies]
    cases hdp : dataPoint m (.history period) path with
    | none => simp
    | some dp =>
      cases dp with
      | nil => simp
      | cons c dp => cases h : dataPoints m (.history period) pathArray <;> simp_all

theorem dataPoints_isSome {m : Moment} {source : DataSource}
    (hsource : ∀ period, source ≠ .history period) (pathArray : List GoString) :
    ∃ points, dataPoints m source pathArray = some (some points) := by
  induction pathArray with
  | nil => exact ⟨[], rfl⟩
  | cons path pathArray ih =>
    obtain ⟨points, ih⟩ := ih
    cases source with
    | history period => exact absurd rfl (hsource period)
    | domain domain => simp [dataPoints, dataPoint, ih]
    | vehicle => simp [dataPoints, dataPoint, ih]

/-- The points of at least one path are longer than the comma behind them. -/
theorem dataPoints_length {m : Moment} {source : DataSource} {pathArray : List GoString}
    {points : GoString} (h : dataPoints m source pathArray = some (some points)) :
    2 ≤ points.length ↔ pathArray ≠ [] := by
  cases pathArray with
  | nil =>
    rw [dataPoints, Option.some.injEq, Option.some.injEq] at h
    simp [← h]
  | cons path pathArray =>
    have hcomma : 2 ≤ (str "\x7d, ").length := by decide
    have hrest : ∃ dp rest, points = str "\x7b\"path\":\"" ++ path ++ str "\", \"dp\":" ++ dp ++
        str "\x7d, " ++ rest := by
      simp only [dataPoints, Option.bind_eq_bind, Option.bind_eq_some_iff] at h
      obtain ⟨dp, -, h⟩ := h
      split at h
      · simp at h
      · simp only [Option.bind_eq_some_iff, Option.some.injEq, Option.map_eq_some_iff] at h
        obtain ⟨_, -, rest, -, rfl⟩ := h
        exact ⟨_, rest, rfl⟩
    obtain ⟨dp, rest, rfl⟩ := hrest
    simp only [List.length_append, ne_eq, reduceCtorEq, not_false_eq_true, iff_true]
    omega

/-- The data pack of points is cut behind the last of them. -/
theorem packPoints_isSome {m : Moment} {source : DataSource} {pathArray : List GoString}
    {points : GoString} (h : dataPoints m source pathArray = some (some points)) :
    (slice (if pathArray.length > 1 then str "[" ++ points else points) 0
      ((if pathArray.length > 1 then str "[" ++ points else points).length - 2)).isSome ↔
        pathArray ≠ [] := by
  rw [slice_front _ 2 (by decide), ← dataPoints_length h]
  split
  · next hlen =>
    have hne : pathArray ≠ [] := by
      rintro rfl
      simp at hlen
    have hpoints := (dataPoints_length h).mpr hne
    simp only [List.length_append]
    omega
  · omega

theorem getDataPack_isSome (cfg : Config) (m : Moment) (pathArray : List GoString)
    (filterList : List FilterObject) :
    (getDataPack cfg m pathArray filterList).isSome ↔ Readable cfg m pathArray filterList := by
  have hread : ∀ source, (∀ period, source ≠ .history period) →
      dataSource filterList = source →
        ((getDataPack cfg m pathArray filterList).isSome ↔ pathArray ≠ []) := by
    intro source hsource hfilter
    obtain ⟨points, hpoints⟩ := dataPoints_isSome (m := m) hsource pathArray
    rw [← packPoints_isSome hpoints]
    cases source with
    | history period => exact absurd rfl (hsource period)
    | domain domain => cases h : cfg.historySupport <;>
        simp [getDataPack, hfilter, h, hpoints, Option.isSome_bind]
    | vehicle => cases h : cfg.historySupport <;>
        simp [getDataPack, hfilter, h, hpoints, Option.isSome_bind]
  cases hfilter : dataSource filterList with
  | domain domain => simpa [Readable, hfilter] using hread (.domain domain) nofun hfilter
  | vehicle => simpa [Readable, hfilter] using hread .vehicle nofun hfilter
  | history period =>
    cases hsupport : cfg.historySupport with
    | false => simp [Readable, hfilter, getDataPack, hsupport]
    | true =>
      have hreplies := dataPoints_history m period pathArray
      cases hpoints : dataPoints m (.history period) pathArray with
      | none => simp_all [Readable, getDataPack]
      | some r =>
        rw [hpoints, Option.isSome_some, iff_true_left rfl] at hreplies
        cases r with
        | none =>
          have hne : pathArray ≠ [] := by
            rintro rfl
            simp [dataPoints] at hpoints
          simp [Readable, hfilter, getDataPack, hsupport, hpoints, hreplies, hne]
        | some points =>
          have hpack := packPoints_isSome hpoints
          simpa [Readable, hfilter, getDataPack, hsupport, hpoints, hreplies,
            Option.isSome_bind] using hpack

/-- The storage and the members that a set request needs. -/
def SetAnswers (m : Moment) (requestMap : GoMap Json) : Prop :=
  ∃ path, valueAt requestMap (str "path") = .str path ∧
    (contains path (str "[") = true ∨
      ∃ value, valueAt requestMap (str "value") = .str value ∧
        m.setVehicleData path value ≠ none)

def isCapabilities (f : FilterObject) : Prop :=
  f.type = str "dynamic-metadata" ∧ f.parameter = str "server_capabilities"

/-- A get request needs a path, and data of all its paths unless it is refused before or
asks for the server capabilities. -/
def GetAnswers (cfg : Config) (m : Moment) (requestMap : GoMap Json) : Prop :=
  ∃ path, valueAt requestMap (str "path") = .str path ∧
    ∀ pathArray, unpackPaths path = some pathArray →
      match (filterMember requestMap).map (unpackFilter m.range) with
      | none => Readable cfg m pathArray []
      | some [] => True
      | some (f :: filterList) =>
          isCapabilities f ∨ Readable cfg m pathArray (f :: filterList)

/-- The first interval or curve logging filter asks for no ticker whose period overflows. -/
def TickerFits (s : State) : List FilterObject → Prop
  | [] => True
  | f :: filterList =>
      if f.type = str "timebased" then
        0 < getIntervalPeriod f.parameter → tickerSlot s 0 ≠ none →
          0 < wrapInt64 (getIntervalPeriod f.parameter * 1000000)
      else if f.type = str "curvelog" then True
      else TickerFits s filterList

/-- What the part of a subscribe request behind the checks of its filter needs. -/
def Subscribable (s : State) (requestMap : GoMap Json) (path : GoString)
    (filterList : List FilterObject) : Prop :=
  gatingIdMember requestMap ≠ none ∧ (unpackPaths path).getD [] ≠ [] ∧ TickerFits s filterList

/-- A filter without filter objects is answered by an error first, so that the rest of the
handling must fail. -/
def SubscribeAnswers (m : Moment) (s : State) (requestMap : GoMap Json) : Prop :=
  (∃ routerId, valueAt requestMap (str "RouterId") = .str routerId) ∧
    ∃ path, valueAt requestMap (str "path") = .str path ∧
      ∀ filter, filterMember requestMap = some filter →
        (Subscribable s requestMap path (unpackFilter m.range filter) ↔
          unpackFilter m.range filter ≠ [])

/-- The ticker of the named interval subscription can be stopped. -/
def UnsubscribeAnswers (s : State) (requestMap : GoMap Json) : Prop :=
  ∀ id, valueAt requestMap (str "subscriptionId") = .str id →
    ∀ e ∈ s.subscriptionList.find? fun e => e.subscriptionId = atoiIgnoringError id,
      getOpType e.filterList (str "timebased") = true →
        ∃ i, tickerSlot s e.subscriptionId = some i ∧ s.subscriptionTicker i ≠ none

/-- The gating id is found at an entry with a router id. -/
def CancelAnswers (s : State) (requestMap : GoMap Json) : Prop :=
  ∃ gatingId, valueAt requestMap (str "gatingId") = .str gatingId ∧
    ∃ e ∈ s.subscriptionList.find? fun e => e.gatingId = gatingId, e.routerId ≠ []

/-- The condition for exactly one answer. -/
def AnswersOnce (cfg : Config) (m : Moment) (s : State) (requestMap : GoMap Json) : Prop :=
  match actionOf requestMap with
  | .set => SetAnswers m requestMap
  | .get => GetAnswers cfg m requestMap
  | .subscribe => SubscribeAnswers m s requestMap
  | .unsubscribe => UnsubscribeAnswers s requestMap
  | .killSubscriptions => False
  | .cancelSubscription => CancelAnswers s requestMap
  | .other => True

theorem setRequest_isSome (m : Moment) (s : State) (requestMap : GoMap Json) :
    (setRequest m s requestMap).isSome ↔ SetAnswers m requestMap := by
  unfold setRequest SetAnswers
  cases hpath : asString (valueAt requestMap (str "path")) with
  | none => simp [asString_eq_none.mp hpath]
  | some path =>
    rw [asString_eq_some] at hpath
    simp only [hpath, Json.str.injEq, exists_eq_left', Option.bind_eq_bind, Option.bind_some]
    by_cases hbracket : contains path (str "[") = true
    · simp [hbracket]
    · simp only [hbracket, Bool.false_eq_true, if_false, false_or]
      cases hvalue : asString (valueAt requestMap (str "value")) with
      | none => simp [asString_eq_none.mp hvalue]
      | some value =>
        rw [asString_eq_some] at hvalue
        simp only [hvalue, Json.str.injEq, exists_eq_left', Option.bind_some]
        cases m.setVehicleData path value with
        | none => simp
        | some ts => by_cases hts : ts = [] <;> simp [hts]

theorem dataAnswer_isSome (cfg : Config) (m : Moment) (s : State) (requestMap : GoMap Json)
    (pathArray : List GoString) (filterList : List FilterObject) :
    (dataAnswer cfg m s requestMap pathArray filterList).isSome ↔
      Readable cfg m pathArray filterList := by
  rw [← getDataPack_isSome, dataAnswer]
  cases getDataPack cfg m pathArray filterList with
  | none => simp
  | some dataPack =>
    obtain ⟨message, hmessage⟩ := Option.isSome_iff_exists.mp
      (addPackage_finalizeMessage (responseMapOf m requestMap) (str "data") dataPack)
    by_cases hempty : dataPack = [] <;> simp_all

theorem getRequest_isSome (cfg : Config) (m : Moment) (s : State) (requestMap : GoMap Json) :
    (getRequest cfg m s requestMap).isSome ↔ GetAnswers cfg m requestMap := by
  unfold getRequest GetAnswers
  cases hpath : asString (valueAt requestMap (str "path")) with
  | none => simp [asString_eq_none.mp hpath]
  | some path =>
    rw [asString_eq_some] at hpath
    simp only [hpath, Json.str.injEq, exists_eq_left', Option.bind_eq_bind, Option.bind_some]
    cases unpackPaths path with
    | none => simp
    | some pathArray =>
      simp only [Option.some.injEq, forall_eq']
      rcases (filterMember requestMap).map (unpackFilter m.range) with - | (- | ⟨f, filterList⟩)
      · exact dataAnswer_isSome cfg m s requestMap pathArray []
      · simp
      · by_cases hcap : isCapabilities f
        · obtain ⟨message, hmessage⟩ := Option.isSome_iff_exists.mp
            (addPackage_finalizeMessage (responseMapOf m requestMap) (str "metadata")
              serverCapabilities)
          have hcap' := hcap
          unfold isCapabilities at hcap'
          simp [hcap', hcap, hmessage]
        · have hcap' := hcap
          unfold isCapabilities at hcap'
          simp only [hcap', if_false, hcap, false_or]
          exact dataAnswer_isSome cfg m s requestMap pathArray (f :: filterList)

theorem activateInterval_isSome (s : State) (id interval : ℤ) :
    (activateInterval s id interval).isSome ↔
      (tickerSlot s 0 ≠ none → 0 < wrapInt64 (interval * 1000000)) := by
  unfold activateInterval
  cases tickerSlot s 0 with
  | none => simp
  | some i =>
    by_cases hperiod : wrapInt64 (interval * 1000000) ≤ 0
    · simp [hperiod]
    · simp [hperiod]
      omega

theorem activateIfIntervalOrCL_isSome (s : State) (filterList : List FilterObject) (id : ℤ)
    (paths : List GoString) :
    (activateIfIntervalOrCL s filterList id paths).isSome ↔ TickerFits s filterList := by
  induction filterList with
  | nil => simp [activateIfIntervalOrCL, TickerFits]
  | cons f filterList ih =>
    rw [activateIfIntervalOrCL, TickerFits]
    by_cases htimebased : f.type = str "timebased"
    · rw [if_pos htimebased, if_pos htimebased]
      by_cases hinterval : 0 < getIntervalPeriod f.parameter
      · simp [hinterval, activateInterval_isSome]
      · simp [hinterval]
    · rw [if_neg htimebased, if_neg htimebased]
      by_cases hcurvelog : f.type = str "curvelog"
      · simp [hcurvelog]
      · simpa only [if_neg hcurvelog] using ih

theorem tickerFits_subscriptionList (s : State) (l : List SubscriptionState)
    (filterList : List FilterObject) :
    TickerFits { s with subscriptionList := l } filterList ↔ TickerFits s filterList := by
  induction filterList with
  | nil => rfl
  | cons f filterList ih => simp only [TickerFits, tickerSlot_subscriptionList, ih]

theorem addSubscription_isSome (m : Moment) (s : State) (requestMap : GoMap Json)
    (routerId path : GoString) (filterList : List FilterObject) :
    (addSubscription m s requestMap routerId ((unpackPaths path).getD []) filterList).isSome ↔
      Subscribable s requestMap path filterList := by
  unfold addSubscription Subscribable
  cases gatingIdMember requestMap with
  | none => simp
  | some gatingId =>
    cases (unpackPaths path).getD [] with
    | nil => simp
    | cons path paths =>
      simp only [List.head?_cons, Option.bind_eq_bind, Option.bind_some, ne_eq, reduceCtorEq,
        not_false_eq_true, true_and, Option.isSome_bind]
      rw [← tickerFits_subscriptionList, ← activateIfIntervalOrCL_isSome]
      cases activateIfIntervalOrCL _ filterList s.subscriptionId (path :: paths) <;> simp

theorem subscribeRequest_answers (m : Moment) (s : State) (requestMap : GoMap Json) :
    (subscribeRequest m s requestMap).answers.length = 1 ↔ SubscribeAnswers m s requestMap := by
  unfold subscribeRequest SubscribeAnswers
  cases hrouter : asString (valueAt requestMap (str "RouterId")) with
  | none => simp [asString_eq_none.mp hrouter]
  | some routerId =>
    cases hpath : asString (valueAt requestMap (str "path")) with
    | none => simp [asString_eq_none.mp hpath]
    | some path =>
      rw [asString_eq_some] at hrouter hpath
      simp only [hrouter, hpath, Json.str.injEq, exists_eq', true_and, exists_eq_left']
      cases filterMember requestMap with
      | none => simp [Handled.length_once]
      | some filter =>
        simp only [Option.some.injEq, forall_eq']
        cases hfilter : unpackFilter m.range filter with
        | nil =>
          have hadd := addSubscription_isSome m (errorAnswer m s requestMap 1).1 requestMap
            routerId path []
          have hsame : Subscribable (errorAnswer m s requestMap 1).1 requestMap path [] ↔
              Subscribable s requestMap path [] := Iff.rfl
          rw [hsame] at hadd
          cases hrest : addSubscription m (errorAnswer m s requestMap 1).1 requestMap routerId
              ((unpackPaths path).getD []) [] with
          | none => simp_all [Handled.once]
          | some r => simp_all [Handled.once]
        | cons f filterList => simp [Handled.length_once, addSubscription_isSome]

theorem deactivateInterval_isSome (s : State) (id : ℤ) :
    (deactivateInterval s id).isSome ↔
      ∃ i, tickerSlot s id = some i ∧ s.subscriptionTicker i ≠ none := by
  unfold deactivateInterval
  cases tickerSlot s id with
  | none => simp
  | some i => cases h : s.subscriptionTicker i <;> simp [h]

theorem deactivateEntry_isSome (s : State) (index : ℕ) (e : SubscriptionState) :
    (deactivateEntry s index e).isSome ↔ (getOpType e.filterList (str "timebased") = true →
      ∃ i, tickerSlot s e.subscriptionId = some i ∧ s.subscriptionTicker i ≠ none) := by
  rw [deactivateEntry, Option.isSome_map, stopTrigger]
  by_cases htimebased : getOpType e.filterList (str "timebased") = true
  · rw [if_pos htimebased, ← deactivateInterval_isSome]
    simp [htimebased]
  · rw [if_neg htimebased]
    cases getOpType e.filterList (str "curvelog") <;> simp [htimebased]

theorem unsubscribeRequest_isSome (m : Moment) (s : State) (requestMap : GoMap Json) :
    (unsubscribeRequest m s requestMap).isSome ↔ UnsubscribeAnswers s requestMap := by
  unfold unsubscribeRequest UnsubscribeAnswers
  cases hid : asString (valueAt requestMap (str "subscriptionId")) with
  | none => simp [asString_eq_none.mp hid]
  | some id =>
    rw [asString_eq_some] at hid
    simp only [hid, Json.str.injEq, forall_eq']
    rcases deactivateSubscriptionId_cases s (atoiIgnoringError id) with
      ⟨hnone, hdeactivate⟩ | ⟨index, e, hget, heq, hfind, hdeactivate⟩
    · simp [deactivateSubscription, hdeactivate, hnone]
    · have hentry := deactivateEntry_isSome s index e
      rw [deactivateSubscription, hdeactivate, hfind]
      cases h : deactivateEntry s index e <;> simp_all

theorem cancelSubscription_answers (m : Moment) (s : State) (requestMap : GoMap Json) :
    (cancelSubscription m s requestMap).answers.length = 1 ↔ CancelAnswers s requestMap := by
  unfold cancelSubscription CancelAnswers
  cases hid : asString (valueAt requestMap (str "gatingId")) with
  | none => simp [asString_eq_none.mp hid]
  | some gatingId =>
    rw [asString_eq_some] at hid
    simp only [hid, Json.str.injEq, exists_eq_left']
    cases hfind : s.subscriptionList.find? fun e => e.gatingId = gatingId with
    | none => simp [getSubscriptionData, hfind]
    | some e => by_cases hrouter : e.routerId = [] <;> simp [getSubscriptionData, hfind, hrouter]

/-- The condition is exact for the answers that a request is given. -/
theorem handleRequest_answers (cfg : Config) (m : Moment) (s : State) (request : GoString) :
    (handleRequest cfg m s request).answers.length = 1 ↔
      AnswersOnce cfg m s (requestMapOf request) := by
  unfold handleRequest AnswersOnce
  dsimp only
  cases actionOf (requestMapOf request) with
  | set => exact (Handled.length_once _).trans (setRequest_isSome m s _)
  | get => exact (Handled.length_once _).trans (getRequest_isSome cfg m s _)
  | subscribe => exact subscribeRequest_answers m s _
  | unsubscribe => exact (Handled.length_once _).trans (unsubscribeRequest_isSome m s _)
  | killSubscriptions =>
    cases h : asString (valueAt (requestMapOf request) (str "RouterId")) <;>
      simp [killSubscriptions, h]
  | cancelSubscription => exact cancelSubscription_answers m s _
  | other => simp [Handled.once]

/-- A request other than internal-killsubscriptions is answered by one message, which
initDataServer takes before it takes the next request. -/
def AnsweredBy (output : Output) : Event → Prop
  | .request request => actionOf (requestMapOf request) ≠ .killSubscriptions →
      awaitsResponse request = true ∧ output.answers.length = 1
  | _ => True

instance (output : Output) : DecidablePred (AnsweredBy output)
  | .request _ => inferInstanceAs (Decidable (_ → _ ∧ _))
  | .dummyTick => .isTrue trivial
  | .interval _ => .isTrue trivial
  | .clPack _ _ => .isTrue trivial
  | .subscriptTick => .isTrue trivial
  | .capture => .isTrue trivial

/-- The text of the request does not look like internal-killsubscriptions, and its handling
sends one answer. -/
def Answerable (cfg : Config) (s : State) : Moment × Event → Prop
  | (m, .request request) => actionOf (requestMapOf request) ≠ .killSubscriptions →
      awaitsResponse request = true ∧ AnswersOnce cfg m s (requestMapOf request)
  | _ => True

theorem answers_requestStep (cfg : Config) (m : Moment) (s : State) (request : GoString) :
    (requestStep cfg m s request).2.answers = (handleRequest cfg m s request).answers := by
  unfold requestStep
  dsimp only
  cases (handleRequest cfg m s request).ending <;> rfl

theorem answered_iff {cfg : Config} {x : Move Service (Moment × Event) Output}
    (hx : x.Of (serviceStep cfg)) :
    AnsweredBy x.output x.event.2 ↔ Answerable cfg x.before.mgr x.event := by
  obtain ⟨before, ⟨m, e⟩, after, output⟩ := x
  cases e with
  | request request =>
    have hstep : serviceStep cfg before (m, .request request) = some (after, output) := hx
    rw [serviceStep] at hstep
    split at hstep
    · simp at hstep
    · have houtput : output = (requestStep cfg m before.mgr request).2 :=
        (congrArg Prod.snd (Option.some.inj hstep)).symm
      simp only [AnsweredBy, Answerable, houtput, answers_requestStep, handleRequest_answers]
  | dummyTick => rfl
  | interval subscriptionId => rfl
  | clPack subscriptionId dataPack => rfl
  | subscriptTick => rfl
  | capture => rfl

/-- In a run every request is answered exactly once if and only if every request meets the
condition in the state in which it comes. -/
theorem answers_once_iff {cfg : Config} {h : ServiceHistory} {x : Service}
    (hrun : ServiceRun cfg h x) :
    Always (fun _ x => AnsweredBy x.output x.event.2) h ↔
      Always (fun _ x => Answerable cfg x.before.mgr x.event) h :=
  hrun.always_iff (I := fun _ _ => True) (fun _ _ => trivial)
    (fun _ _ _ hx => answered_iff hx) (fun _ _ _ _ _ => trivial)

/-- A subscribe request with an empty filter array, as the core forwards it. -/
def emptyFilterRequest : GoString := str (
  "\x7b\"RouterId\":\"1?0\",\"action\":\"subscribe\",\"filter\":[],\"path\":\"Vehicle.Speed\"," ++
  "\"requestId\":\"paths parameter\"\x7d")

/-- It is answered by an error and by a success. -/
theorem answers_twice : ¬ ∀ cfg h x, ServiceRun cfg h x →
    Always (fun _ x => AnsweredBy x.output x.event.2) h := by
  intro hall
  obtain ⟨h, x, hrun, hbad⟩ := exists_serviceRun sampleConfig
    [(sampleMoment, .request emptyFilterRequest)]
    (fun h => ¬ Always (fun _ x => AnsweredBy x.output x.event.2) h) (by decide +kernel)
  exact hbad (hall _ h x hrun)

/-- A run with a get request, which is answered once. -/
theorem answers_once_get : ∃ h x, ServiceRun sampleConfig h x ∧ h.length = 1 ∧
    Always (fun _ x => Answerable sampleConfig x.before.mgr x.event) h := by
  obtain ⟨h, x, hrun, hlength, hanswered⟩ := exists_serviceRun sampleConfig
    [(sampleMoment, .request (str
      "\x7b\"RouterId\":\"1?0\",\"action\":\"get\",\"path\":\"Vehicle.Speed\"\x7d"))]
    (fun h => h.length = 1 ∧ Always (fun _ x => AnsweredBy x.output x.event.2) h)
    (by decide +kernel)
  exact ⟨h, x, hrun, hlength, (answers_once_iff hrun).mp hanswered⟩

end VissServer.ServiceMgr
