import VissServer.ServiceMgr.Answers
import VissServer.Go.JsonMaps
import VissServer.ServiceMgr.Invariants

/-!
What a subscribe request leaves behind: a subscription with the trigger that its filter
asks for, nothing but an error response, or something in between.
-/
namespace VissServer.ServiceMgr

open Go Utils Runs

/-- The buffer size of a curve logging filter; a text that is no number gives 0. -/
def getBufSize (opValue : GoString) : ℤ :=
  match decodeField (str "bufsize") opValue with
  | none => 0
  | some bufSize => atoiIgnoringError bufSize

/-- A running ticker with the period of the filter sends the id. -/
def IntervalArmed (s : State) (id : ℤ) (f : FilterObject) : Prop :=
  0 < getIntervalPeriod f.parameter ∧
    ∃ i, s.tickerIndexList i = id ∧ s.subscriptionTicker i =
      some { period := getIntervalPeriod f.parameter * 1000000, subscriptionId := id }

/-- A curveLoggingServer runs for the filter, there is room for its capture session, and
the session can make its buffer. -/
def CaptureArmed (s : State) (id : ℤ) (paths : List GoString) (f : FilterObject) : Prop :=
  { subscriptionId := id, opValue := f.parameter, paths } ∈ s.curveLoggingServers ∧
    s.numOfClSessions ≤ MAXCLSESSIONS ∧ 0 ≤ getBufSize f.parameter

/-- The triggers that the filters of an entry ask for are armed. -/
def Armed (s : State) (e : SubscriptionState) : Prop :=
  ∀ f ∈ e.filterList,
    (f.type = str "timebased" → IntervalArmed s e.subscriptionId f) ∧
    (f.type = str "curvelog" → CaptureArmed s e.subscriptionId e.path f)

/-- The request is answered by a success, and there is one new entry for it. -/
def Subscribed (s : State) (requestMap : GoMap Json) (answers : List GoString) (s' : State) :
    Prop :=
  ∃ e, s'.subscriptionList = s.subscriptionList ++ [e] ∧
    valueAt requestMap (str "RouterId") = .str e.routerId ∧
    (∃ paths, valueAt requestMap (str "path") = .str paths ∧ unpackPaths paths = some e.path) ∧
    gatingIdMember requestMap = some e.gatingId ∧ Armed s' e ∧
    ∃ responseMap, answers = [finalizeMessage responseMap] ∧
      valueAt responseMap (str "error") = .null ∧
      valueAt responseMap (str "subscriptionId") = .str (itoa e.subscriptionId)

/-- The request is answered by an error, and nothing has changed. -/
def Refused (s : State) (answers : List GoString) (s' : State) : Prop :=
  s'.subscriptionList = s.subscriptionList ∧ s'.tickerIndexList = s.tickerIndexList ∧
    s'.subscriptionTicker = s.subscriptionTicker ∧ s'.subscriptionId = s.subscriptionId ∧
    s'.curveLoggingServers = s.curveLoggingServers ∧ s'.numOfClSessions = s.numOfClSessions ∧
    ∃ errorMap, answers = [finalizeMessage errorMap] ∧ valueAt errorMap (str "error") ≠ .null

/-- The handling of a subscribe request is all or nothing. -/
def AllOrNothing (s : State) (requestMap : GoMap Json) (handled : Handled) : Prop :=
  ∃ s', handled.ending = .back s' ∧
    (Subscribed s requestMap handled.answers s' ∨ Refused s handled.answers s')

/-- A filter that arms a trigger. -/
def armsTrigger (f : FilterObject) : Bool := f.type = str "timebased" || f.type = str "curvelog"

/-- The filters ask for the trigger of the first of them only, and it can be armed. -/
def Armable (s : State) (filterList : List FilterObject) : Prop :=
  ∀ f ∈ filterList.find? armsTrigger,
    if f.type = str "timebased" then
      0 < getIntervalPeriod f.parameter ∧ getIntervalPeriod f.parameter ≤ 9223372036854 ∧
        tickerSlot s 0 ≠ none ∧
        ∀ g ∈ filterList, g.type ≠ str "curvelog" ∧
          (g.type = str "timebased" →
            getIntervalPeriod g.parameter = getIntervalPeriod f.parameter)
    else
      s.numOfClSessions ≤ MAXCLSESSIONS ∧ 0 ≤ getBufSize f.parameter ∧
        ∀ g ∈ filterList, g.type ≠ str "timebased" ∧
          (g.type = str "curvelog" → g.parameter = f.parameter)

/-- The condition for all or nothing: the request has no filter, or everything it needs. -/
def Acceptable (m : Moment) (s : State) (requestMap : GoMap Json) : Prop :=
  (∃ routerId, valueAt requestMap (str "RouterId") = .str routerId) ∧
    ∃ path, valueAt requestMap (str "path") = .str path ∧
      ∀ filter, filterMember requestMap = some filter →
        unpackFilter m.range filter ≠ [] ∧ gatingIdMember requestMap ≠ none ∧
          (unpackPaths path).getD [] ≠ [] ∧ Armable s (unpackFilter m.range filter)

theorem wrapInt64_period {period : ℤ} (hpos : 0 < period) :
    wrapInt64 (period * 1000000) = period * 1000000 ↔ period ≤ 9223372036854 := by
  unfold wrapInt64
  omega

/-- Only the first filter that arms a trigger counts. -/
theorem activateIfIntervalOrCL_eq (s : State) (filterList : List FilterObject) (id : ℤ)
    (paths : List GoString) :
    activateIfIntervalOrCL s filterList id paths =
      match filterList.find? armsTrigger with
      | none => some s
      | some f => activateIfIntervalOrCL s [f] id paths := by
  induction filterList with
  | nil => rfl
  | cons f filterList ih =>
    by_cases htimebased : f.type = str "timebased"
    · have harms : armsTrigger f = true := by simp [armsTrigger, htimebased]
      simp [harms, activateIfIntervalOrCL, htimebased]
    · by_cases hcurvelog : f.type = str "curvelog"
      · have harms : armsTrigger f = true := by simp [armsTrigger, hcurvelog]
        have hne : ¬ str "curvelog" = str "timebased" := by decide
        simp [harms, activateIfIntervalOrCL, hcurvelog, hne]
      · have harms : armsTrigger f = false := by simp [armsTrigger, htimebased, hcurvelog]
        rw [activateIfIntervalOrCL, if_neg htimebased, if_neg hcurvelog, ih,
          List.find?_cons_of_neg (by simp [harms])]

theorem armsTrigger_iff {f : FilterObject} :
    armsTrigger f = true ↔ f.type = str "timebased" ∨ f.type = str "curvelog" := by
  simp [armsTrigger]

/-- No slot and no server has the id yet. -/
def Unused (s : State) (id : ℤ) : Prop :=
  (∀ i, s.tickerIndexList i ≠ id) ∧ ∀ c ∈ s.curveLoggingServers, c.subscriptionId ≠ id

section

variable {s s' : State} {id : ℤ} {paths : List GoString} {f g : FilterObject}

theorem Unused.not_intervalArmed (h : Unused s id) : ¬ IntervalArmed s id f := by
  rintro ⟨-, i, hi, -⟩
  exact h.1 i hi

/-- What a ticker that was started for one filter is to another. -/
theorem intervalArmed_iff (h : Unused s id)
    (hactivate : activateInterval s id (getIntervalPeriod f.parameter) = some s') :
    s'.curveLoggingServers = s.curveLoggingServers ∧
    (IntervalArmed s' id g ↔ tickerSlot s 0 ≠ none ∧ 0 < getIntervalPeriod g.parameter ∧
      wrapInt64 (getIntervalPeriod f.parameter * 1000000) =
        getIntervalPeriod g.parameter * 1000000) := by
  unfold activateInterval at hactivate
  split at hactivate
  · next hnone =>
    obtain rfl := Option.some.inj hactivate
    exact ⟨rfl, iff_of_false h.not_intervalArmed fun hg => hg.1 hnone⟩
  · next i hi =>
    dsimp only at hactivate
    split at hactivate
    · simp at hactivate
    · obtain rfl := Option.some.inj hactivate
      refine ⟨rfl, ?_⟩
      rw [hi]
      constructor
      · rintro ⟨hg, j, hj, hticker⟩
        dsimp only at hj hticker
        have hji : j = i := by
          by_contra hne
          rw [Function.update_of_ne hne] at hj
          exact h.1 j hj
        subst hji
        rw [Function.update_self, Option.some.injEq, Ticker.mk.injEq] at hticker
        exact ⟨nofun, hg, hticker.1⟩
      · rintro ⟨-, hg, hperiod⟩
        refine ⟨hg, i, Function.update_self .., ?_⟩
        dsimp only
        rw [Function.update_self, hperiod]

/-- The trigger of an interval filter that comes first. -/
theorem armed_interval {filterList : List FilterObject} (h : Unused s id)
    (hf : f ∈ filterList) (htimebased : f.type = str "timebased")
    (hactivate : activateIfIntervalOrCL s [f] id paths = some s') :
    (∀ g ∈ filterList, (g.type = str "timebased" → IntervalArmed s' id g) ∧
        (g.type = str "curvelog" → CaptureArmed s' id paths g)) ↔
      0 < getIntervalPeriod f.parameter ∧ getIntervalPeriod f.parameter ≤ 9223372036854 ∧
        tickerSlot s 0 ≠ none ∧
        ∀ g ∈ filterList, g.type ≠ str "curvelog" ∧
          (g.type = str "timebased" →
            getIntervalPeriod g.parameter = getIntervalPeriod f.parameter) := by
  rw [activateIfIntervalOrCL, if_pos htimebased] at hactivate
  dsimp only at hactivate
  by_cases hpos : 0 < getIntervalPeriod f.parameter
  · rw [if_pos hpos] at hactivate
    have hservers : s'.curveLoggingServers = s.curveLoggingServers :=
      (intervalArmed_iff (g := f) h hactivate).1
    have hnoCapture : ∀ g, ¬ CaptureArmed s' id paths g := by
      rintro g ⟨hmem, -⟩
      rw [hservers] at hmem
      exact h.2 _ hmem rfl
    have harmed := fun g => (intervalArmed_iff (g := g) h hactivate).2
    constructor
    · intro hall
      obtain ⟨hslot, -, hwrap⟩ := (harmed f).mp ((hall f hf).1 htimebased)
      refine ⟨hpos, (wrapInt64_period hpos).mp hwrap, hslot, fun g hg => ⟨?_, fun htype => ?_⟩⟩
      · exact fun hcurvelog => hnoCapture g ((hall g hg).2 hcurvelog)
      · obtain ⟨-, -, hperiod⟩ := (harmed g).mp ((hall g hg).1 htype)
        rw [hwrap] at hperiod
        omega
    · rintro ⟨-, hbound, hslot, hall⟩ g hg
      refine ⟨fun htype => (harmed g).mpr ⟨hslot, ?_, ?_⟩, fun htype => ?_⟩
      · rw [(hall g hg).2 htype]
        exact hpos
      · rw [(hall g hg).2 htype, (wrapInt64_period hpos).mpr hbound]
      · exact absurd htype (hall g hg).1
  · rw [if_neg hpos] at hactivate
    obtain rfl := Option.some.inj hactivate
    exact iff_of_false (fun hall => h.not_intervalArmed ((hall f hf).1 htimebased))
      fun hall => hpos hall.1

/-- The trigger of a curve logging filter that comes first. -/
theorem armed_capture {filterList : List FilterObject} (h : Unused s id)
    (hf : f ∈ filterList) (hcurvelog : f.type = str "curvelog")
    (hactivate : activateIfIntervalOrCL s [f] id paths = some s') :
    (∀ g ∈ filterList, (g.type = str "timebased" → IntervalArmed s' id g) ∧
        (g.type = str "curvelog" → CaptureArmed s' id paths g)) ↔
      s.numOfClSessions ≤ MAXCLSESSIONS ∧ 0 ≤ getBufSize f.parameter ∧
        ∀ g ∈ filterList, g.type ≠ str "timebased" ∧
          (g.type = str "curvelog" → g.parameter = f.parameter) := by
  have hne : f.type ≠ str "timebased" := by
    rw [hcurvelog]
    decide
  rw [activateIfIntervalOrCL, if_neg hne, if_pos hcurvelog] at hactivate
  obtain rfl := Option.some.inj hactivate
  have hnoInterval : ∀ g, ¬ IntervalArmed { s with curveLoggingServers :=
      s.curveLoggingServers ++ [{ subscriptionId := id, opValue := f.parameter, paths }] }
      id g := by
    rintro g ⟨-, i, hi, -⟩
    exact h.1 i hi
  have hcapture : ∀ g, CaptureArmed { s with curveLoggingServers :=
      s.curveLoggingServers ++ [{ subscriptionId := id, opValue := f.parameter, paths }] }
      id paths g ↔ g.parameter = f.parameter ∧ s.numOfClSessions ≤ MAXCLSESSIONS ∧
        0 ≤ getBufSize g.parameter := by
    intro g
    refine and_congr_left fun _ => ?_
    rw [List.mem_append, List.mem_singleton, CurveLogging.mk.injEq]
    exact ⟨fun hmem => (hmem.resolve_left fun hold => h.2 _ hold rfl).2.1,
      fun hg => .inr ⟨rfl, hg, rfl⟩⟩
  constructor
  · intro hall
    obtain ⟨-, hroom, hsize⟩ := (hcapture f).mp ((hall f hf).2 hcurvelog)
    refine ⟨hroom, hsize, fun g hg => ⟨?_, fun htype => ?_⟩⟩
    · exact fun htimebased => hnoInterval g ((hall g hg).1 htimebased)
    · exact ((hcapture g).mp ((hall g hg).2 htype)).1
  · rintro ⟨hroom, hsize, hall⟩ g hg
    refine ⟨fun htype => absurd htype (hall g hg).1, fun htype => ?_⟩
    have hparameter := (hall g hg).2 htype
    exact (hcapture g).mpr ⟨hparameter, hroom, hparameter ▸ hsize⟩

/-- The condition is exact for the triggers of a new entry. -/
theorem armed_iff {e : SubscriptionState} (h : Unused s e.subscriptionId)
    (hactivate : activateIfIntervalOrCL s e.filterList e.subscriptionId e.path = some s') :
    Armed s' e ↔ Armable s e.filterList := by
  rw [activateIfIntervalOrCL_eq] at hactivate
  unfold Armed Armable
  cases hfind : e.filterList.find? armsTrigger with
  | none =>
    have hnone : ∀ g ∈ e.filterList, g.type ≠ str "timebased" ∧ g.type ≠ str "curvelog" := by
      intro g hg
      have harms := List.find?_eq_none.mp hfind g hg
      rwa [armsTrigger_iff, not_or] at harms
    simp only [reduceCtorEq, false_implies, implies_true, iff_true, Option.mem_def]
    exact fun g hg => ⟨fun htype => absurd htype (hnone g hg).1,
      fun htype => absurd htype (hnone g hg).2⟩
  | some f =>
    rw [hfind] at hactivate
    dsimp only at hactivate
    have hf := List.mem_of_find?_eq_some hfind
    simp only [Option.mem_def, Option.some.injEq, forall_eq']
    by_cases htimebased : f.type = str "timebased"
    · rw [if_pos htimebased]
      exact armed_interval h hf htimebased hactivate
    · rw [if_neg htimebased]
      have hcurvelog := (armsTrigger_iff.mp (List.find?_some hfind)).resolve_left htimebased
      exact armed_capture h hf hcurvelog hactivate

theorem Armable.tickerFits {filterList : List FilterObject} (h : Armable s filterList) :
    TickerFits s filterList := by
  have hfits : (activateIfIntervalOrCL s filterList 0 []).isSome := by
    rw [activateIfIntervalOrCL_eq]
    cases hfind : filterList.find? armsTrigger with
    | none => rfl
    | some f =>
      have hf := h f hfind
      dsimp only
      rw [activateIfIntervalOrCL_isSome, TickerFits]
      by_cases htimebased : f.type = str "timebased"
      · rw [if_pos htimebased] at hf ⊢
        obtain ⟨hpos, hbound, -⟩ := hf
        rw [(wrapInt64_period hpos).mpr hbound]
        omega
      · rw [if_neg htimebased]
        simp [TickerFits]
  exact (activateIfIntervalOrCL_isSome s filterList 0 []).mp hfits

theorem Fresh.unused (h : Fresh s) : Unused s s.subscriptionId :=
  ⟨fun i => (h.tickers i).ne, fun c hc => (h.servers c hc).ne⟩

theorem error_setErrorResponse (ts : GoString) (reqMap errRespMap : GoMap Json) (i : Fin 8)
    (altErrorMessage : GoString) :
    valueAt (setErrorResponse ts reqMap errRespMap i altErrorMessage) (str "error") ≠ .null := by
  have hne : str "error" ≠ str "ts" := by decide
  rw [setErrorResponse, valueAt_set, if_neg hne, valueAt_set, if_pos rfl]
  exact nofun

theorem error_responseMapOf (m : Moment) (requestMap : GoMap Json) :
    valueAt (responseMapOf m requestMap) (str "error") = .null := by
  have hmembers : valueAt (GoMap.ofMembers
      [(str "RouterId", valueAt requestMap (str "RouterId")),
        (str "action", valueAt requestMap (str "action")),
        (str "requestId", valueAt requestMap (str "requestId")),
        (str "ts", .str m.rfcTime)]) (str "error") = .null := by
    rw [valueAt, GoMap.get_ofMembers]
    rfl
  have hne : str "error" ≠ str "authorization" := by decide
  rw [responseMapOf]
  split
  · exact hmembers
  · rw [valueAt_set, if_neg hne]
    exact hmembers

/-- The handling of a subscribe request whose filter has filter objects. -/
theorem addSubscription_allOrNothing {m : Moment} {requestMap : GoMap Json}
    {routerId pathText : GoString} {filterList : List FilterObject} (hs : Fresh s)
    (hrouter : valueAt requestMap (str "RouterId") = .str routerId)
    (hpath : valueAt requestMap (str "path") = .str pathText) :
    AllOrNothing s requestMap (.once (addSubscription m s requestMap routerId
        ((unpackPaths pathText).getD []) filterList)) ↔
      gatingIdMember requestMap ≠ none ∧ (unpackPaths pathText).getD [] ≠ [] ∧
        Armable s filterList := by
  have hsome := addSubscription_isSome m s requestMap routerId pathText filterList
  cases hadd : addSubscription m s requestMap routerId ((unpackPaths pathText).getD [])
      filterList with
  | none =>
    rw [hadd] at hsome
    refine iff_of_false ?_ ?_
    · rintro ⟨s', hend, -⟩
      simp [Handled.once] at hend
    · rintro ⟨hgating, hpaths, harmable⟩
      simpa using hsome.mpr ⟨hgating, hpaths, harmable.tickerFits⟩
  | some r =>
    obtain ⟨s', answer⟩ := r
    obtain ⟨gatingId, path, rest, s₁, hpaths, hgating, hactivate, rfl, rfl⟩ :=
      addSubscription_some hadd
    obtain ⟨hlist, -, -⟩ := activateIfIntervalOrCL_some hactivate
    dsimp only at hlist
    have harmed := armed_iff (e := newEntry m s routerId gatingId path rest filterList)
      (show Unused { s with subscriptionList := s.subscriptionList ++
        [newEntry m s routerId gatingId path rest filterList] } s.subscriptionId from hs.unused)
      hactivate
    have harmable : Armable { s with subscriptionList := s.subscriptionList ++
        [newEntry m s routerId gatingId path rest filterList] } filterList ↔
          Armable s filterList := by
      simp only [Armable, tickerSlot_subscriptionList]
    rw [show (newEntry m s routerId gatingId path rest filterList).filterList = filterList
      from rfl, harmable] at harmed
    simp only [hpaths, hgating, ne_eq, reduceCtorEq, not_false_eq_true, Option.getD_some,
      true_and, ← harmed]
    constructor
    · rintro ⟨s', hend, hsubscribed | hrefused⟩
      · obtain ⟨e, hnew, -, -, -, harmed', -⟩ := hsubscribed
        obtain rfl := Ending.back.inj hend
        dsimp only at hnew
        rw [hlist, List.append_cancel_left_eq, List.singleton_inj] at hnew
        rw [hnew]
        exact harmed'
      · obtain rfl := Ending.back.inj hend
        have hsame := hrefused.1
        dsimp only at hsame
        simp [hlist] at hsame
    · intro harmed'
      refine ⟨_, rfl, .inl ⟨newEntry m s routerId gatingId path rest filterList, hlist, hrouter,
        ⟨pathText, hpath, hpaths⟩, hgating, harmed', _, rfl, ?_, ?_⟩⟩
      · have hne : str "error" ≠ str "subscriptionId" := by decide
        rw [valueAt_set, if_neg hne, error_responseMapOf]
      · rw [valueAt_set, if_pos rfl]
        rfl

/-- The handling of a subscribe request is all or nothing exactly under the condition. -/
theorem subscribeRequest_allOrNothing (m : Moment) (hs : Fresh s) (requestMap : GoMap Json) :
    AllOrNothing s requestMap (subscribeRequest m s requestMap) ↔
      Acceptable m s requestMap := by
  unfold subscribeRequest Acceptable
  cases hrouter : asString (valueAt requestMap (str "RouterId")) with
  | none => simp [asString_eq_none.mp hrouter, AllOrNothing]
  | some routerId =>
    cases hpath : asString (valueAt requestMap (str "path")) with
    | none => simp [asString_eq_none.mp hpath, AllOrNothing]
    | some path =>
      rw [asString_eq_some] at hrouter hpath
      simp only [hrouter, hpath, Json.str.injEq, exists_eq', true_and, exists_eq_left']
      cases filterMember requestMap with
      | none =>
        refine iff_of_true ⟨_, rfl, .inr ⟨rfl, rfl, rfl, rfl, rfl, rfl, _, rfl, ?_⟩⟩ nofun
        exact error_setErrorResponse _ _ _ _ _
      | some filter =>
        simp only [Option.some.injEq, forall_eq']
        cases hfilter : unpackFilter m.range filter with
        | nil =>
          refine iff_of_false ?_ (fun h => h.1 rfl)
          rintro ⟨s', hend, hsent⟩
          obtain ⟨answer, hadd⟩ := Handled.once_back hend
          dsimp only at hsent
          rw [hadd] at hsent
          rcases hsent with ⟨-, -, -, -, -, -, _, hanswers, -⟩ |
            ⟨-, -, -, -, -, -, _, hanswers, -⟩
          · simp [Handled.once] at hanswers
          · simp [Handled.once] at hanswers
        | cons f filterList =>
          simp only [ne_eq, reduceCtorEq, not_false_eq_true, true_and]
          exact addSubscription_allOrNothing hs hrouter hpath

end

/-- A subscribe request with an interval of the given period, as the core forwards it. -/
def intervalRequest (period : String) : GoString :=
  str ("\x7b\"RouterId\":\"1?0\",\"action\":\"subscribe\",\"filter\":\x7b\"parameter\":\x7b\"period\":\"") ++
  str period ++
  str "\"\x7d,\"type\":\"timebased\"\x7d,\"path\":\"Vehicle.Speed\"\x7d"

def intervalFilter (period : String) : FilterObject where
  type := str "timebased"
  parameter := str "\x7b\"period\":\"" ++ str period ++ str "\"\x7d"

theorem intervalFilter_type (period : String) :
    (intervalFilter period).type = str "timebased" := rfl

end VissServer.ServiceMgr
