import VissServer.Go.Decimals
import VissServer.Go.Slices
import VissServer.Managers.Origin
import VissServer.ServiceMgr.Answers
import VissServer.ServiceMgr.RangeFilters
import VissServer.ServiceMgr.Unsubscribing

/-!
The polls of a change subscription. For booleans the latest data point is that of the previous
poll; for numbers it is that of the latest poll that triggered a notification.
-/
namespace VissServer.ServiceMgr

open Go Utils Runs

/-! ## Notifications of a subscription -/

/-- The subscription id in front of the data of a notification. -/
def addressee (message : GoString) : Option GoString := do
  let s := message.drop (str "\x7b\"RouterId\":\"").length
  let (_, s) ← readString s.length s
  let s := s.drop (str ",\"action\":\"subscription\",\"subscriptionId\":\"").length
  let (id, _) ← readString s.length s
  some id

/-- One of the messages is a notification of the subscription. -/
def notified (id : ℤ) (messages : List GoString) : Bool :=
  messages.any fun message => addressee message = some (itoa id)

theorem itoa_injective : Function.Injective itoa := by
  intro i j h
  have hsplit := splitSign_itoa i
  rw [h, splitSign_itoa j] at hsplit
  obtain ⟨hsign, hdigits⟩ := Prod.mk.inj hsplit
  rw [← signed_natAbs i, ← signed_natAbs j, hsign, hdigits]

section Notifications

variable {cfg : Config} {m : Moment} {e e' : SubscriptionState} {message dataPack : GoString}

theorem finalizeMessage_subscriptionMapOf (m : Moment) (e : SubscriptionState) :
    finalizeMessage (subscriptionMapOf m e) =
      str "\x7b\"RouterId\":" ++ quote e.routerId ++
        str ",\"action\":\"subscription\",\"subscriptionId\":" ++
          quote (itoa e.subscriptionId) ++ str ",\"ts\":" ++ quote m.rfcTime ++ str "\x7d" := by
  have hmap : (subscriptionMapOf m e).delete (str "origin") =
      [(str "RouterId", .str e.routerId), (str "action", .str (str "subscription")),
        (str "subscriptionId", .str (itoa e.subscriptionId)), (str "ts", .str m.rfcTime)] := rfl
  have hrouter : quote (str "RouterId") = str "\"RouterId\"" := by decide +kernel
  have haction : quote (str "action") ++ 58 :: (quote (str "subscription") ++ 44 ::
      (quote (str "subscriptionId") ++ [58])) =
        str "\"action\":\"subscription\",\"subscriptionId\":" := by decide +kernel
  have hts : quote (str "ts") = str "\"ts\"" := by decide +kernel
  rw [finalizeMessage, hmap]
  simp only [marshal, marshalMembers]
  calc 123 :: (quote (str "RouterId") ++ 58 :: (quote e.routerId ++ 44 ::
        (quote (str "action") ++ 58 :: (quote (str "subscription") ++ 44 ::
          (quote (str "subscriptionId") ++ 58 :: (quote (itoa e.subscriptionId) ++ 44 ::
            (quote (str "ts") ++ 58 :: quote m.rfcTime)))))) ++ [125])
    _ = 123 :: quote (str "RouterId") ++ [58] ++ quote e.routerId ++ 44 ::
          (quote (str "action") ++ 58 :: (quote (str "subscription") ++ 44 ::
            (quote (str "subscriptionId") ++ [58]))) ++ quote (itoa e.subscriptionId) ++ 44 ::
              (quote (str "ts") ++ [58]) ++ quote m.rfcTime ++ [125] := by simp
    _ = _ := by
      rw [haction, hrouter, hts]
      rfl

theorem notification_some (h : notification m e dataPack = some message) :
    ∃ rest, message = str "\x7b\"RouterId\":" ++ (quote e.routerId ++
      (str ",\"action\":\"subscription\",\"subscriptionId\":" ++
        (quote (itoa e.subscriptionId) ++ rest))) := by
  rw [notification, addPackage, finalizeMessage_subscriptionMapOf,
    show str "\x7d" = [125] from rfl, slice_init, Option.bind_eq_bind, Option.bind_some,
    Option.some.injEq] at h
  rw [← h]
  simp only [List.append_assoc]
  exact ⟨_, rfl⟩

theorem addressee_notification (h : notification m e dataPack = some message) :
    addressee message = some (itoa e.subscriptionId) := by
  obtain ⟨rest, rfl⟩ := notification_some h
  have hid : sanitizeString (itoa e.subscriptionId) = itoa e.subscriptionId :=
    (validString_of_isPlain isPlain_itoa).sanitize
  have hrouter : str "\x7b\"RouterId\":" ++ [34] = str "\x7b\"RouterId\":\"" := rfl
  have haction : str ",\"action\":\"subscription\",\"subscriptionId\":" ++ [34] =
      str ",\"action\":\"subscription\",\"subscriptionId\":\"" := rfl
  rw [addressee, quote_append, quote_append, List.append_cons, hrouter, List.drop_left,
    Option.bind_eq_bind]
  dsimp only
  rw [readString_quote, Option.bind_some]
  dsimp only
  rw [List.append_cons, haction, List.drop_left, readString_quote, hid]
  rfl

theorem notified_append (id : ℤ) (messages messages' : List GoString) :
    notified id (messages ++ messages') = (notified id messages || notified id messages') :=
  List.any_append

/-- An entry sends one notification or none, which names it. -/
theorem notified_checkEntry {sent : List GoString} (h : checkEntry cfg m e = some (e', sent))
    (id : ℤ) : notified id sent = (decide (e.subscriptionId = id) && decide (sent ≠ [])) := by
  simp only [checkEntry, Option.bind_eq_bind, Option.bind_eq_some_iff] at h
  obtain ⟨path, -, h⟩ := h
  split at h
  · simp only [Option.bind_eq_some_iff, Option.some.injEq, Prod.mk.injEq] at h
    obtain ⟨dataPack, -, message, hmessage, -, rfl⟩ := h
    simp [notified, addressee_notification hmessage, itoa_injective.eq_iff]
  · obtain ⟨-, rfl⟩ := Prod.mk.inj (Option.some.inj h)
    simp [notified]

/-- The notifications of a pass name the entries that sent them. -/
theorem notified_checkEntries {l l' : List SubscriptionState} {messages sent : List GoString}
    (h : checkEntries cfg m l = some (l', messages))
    (hnodup : (l.map SubscriptionState.subscriptionId).Nodup) (he : e ∈ l)
    (hsent : checkEntry cfg m e = some (e', sent)) :
    notified e.subscriptionId messages = decide (sent ≠ []) := by
  have hothers : ∀ {l l' : List SubscriptionState} {messages : List GoString},
      checkEntries cfg m l = some (l', messages) →
      e.subscriptionId ∉ l.map SubscriptionState.subscriptionId →
        notified e.subscriptionId messages = false := by
    intro l
    induction l with
    | nil =>
      intro l' messages h _
      obtain ⟨-, rfl⟩ := Prod.mk.inj (Option.some.inj h)
      rfl
    | cons x l ih =>
      intro l' messages h hmem
      rw [List.map_cons, List.mem_cons, not_or] at hmem
      simp only [checkEntries, Option.bind_eq_bind, Option.bind_eq_some_iff, Option.some.injEq,
        Prod.mk.injEq] at h
      obtain ⟨⟨x', front⟩, hx, ⟨rest, back⟩, hrest, -, rfl⟩ := h
      rw [notified_append, notified_checkEntry hx, ih hrest hmem.2]
      simp [Ne.symm hmem.1]
  induction l generalizing l' messages with
  | nil => exact absurd he List.not_mem_nil
  | cons x l ih =>
    rw [List.map_cons, List.nodup_cons] at hnodup
    simp only [checkEntries, Option.bind_eq_bind, Option.bind_eq_some_iff, Option.some.injEq,
      Prod.mk.injEq] at h
    obtain ⟨⟨x', front⟩, hx, ⟨rest, back⟩, hrest, -, rfl⟩ := h
    rw [notified_append, notified_checkEntry hx]
    rcases List.mem_cons.mp he with rfl | he
    · obtain ⟨-, rfl⟩ := Prod.mk.inj (Option.some.inj (hx.symm.trans hsent))
      rw [hothers hrest hnodup.1]
      simp
    · have hne : x.subscriptionId ≠ e.subscriptionId := by
        intro heq
        exact hnodup.1 (heq ▸ List.mem_map_of_mem he)
      rw [ih hrest hnodup.2 he]
      simp [hne]

end Notifications

/-! ## The law -/

/-- The operator and the difference of a change filter, where it is the first filter with a
trigger on values. -/
def changeFilterOf (filterList : List FilterObject) : Option (GoString × GoString) := do
  let f ← filterList.find? fun f => f.type = str "range" ∨ f.type = str "change"
  if f.type = str "change" then
    (parseText f.parameter).bind (decodeFields (str "logic-op") (str "diff"))
  else none

/-- The value at the first path of a subscription. -/
def polledValue (m : Moment) (e : SubscriptionState) : GoString :=
  getDPValue (m.vehicleData (e.path.head?.getD []))

/-- The values of a subscription, the latest first: at its polls, with whether they triggered a
notification, and last at the subscribe request, where it becomes the reference. -/
def polled : ServiceHistory → ℤ → List (GoString × Bool)
  | [], _ => []
  | y :: h, id =>
      match y.event with
      | (m, .request request) =>
          if id = y.before.mgr.subscriptionId then
            (subscribed m id (requestMapOf request)).toList.map fun e => (polledValue m e, true)
          else polled h id
      | (m, .subscriptTick) =>
          match y.before.mgr.subscriptionList.find? fun e => e.subscriptionId = id with
          | some e => (polledValue m e, notified id y.output.notifications) :: polled h id
          | none => polled h id
      | _ => polled h id

/-- The value at the latest poll with a notification, or at the subscribe request. -/
def reference (values : List (GoString × Bool)) : Option GoString :=
  (values.find? Prod.snd).map Prod.fst

def previous (values : List (GoString × Bool)) : Option GoString := values.head?.map Prod.fst

/-- The comparisons of a boolean with the one before it: stayed, changed, rose and fell. -/
def Turns (logicOp : GoString) (before after : Bool) : Prop :=
  (logicOp = str "eq" ∧ after = before) ∨ (logicOp = str "ne" ∧ after ≠ before) ∨
  (logicOp = str "gt" ∧ before = false ∧ after = true) ∨
  (logicOp = str "lt" ∧ before = true ∧ after = false)

def IsSmall (value : GoString) : Prop := ∃ i ∈ atoi value, i.natAbs < 2 ^ 62

def IsBoolean (value : GoString) : Prop := value = str "true" ∨ value = str "false"

def isTrue (value : GoString) : Bool := value = str "true"

/-- What a poll is to do with the entry of a change subscription. -/
structure ChangeLaw (h : ServiceHistory) (y : ServiceMove) (e : SubscriptionState)
    (logicOp diff : GoString) : Prop where
  integers : IsSmall diff → (∀ p ∈ polled (y :: h) e.subscriptionId, IsSmall p.1) →
    ∃ d v r, atoi diff = some d ∧ atoi (polledValue y.event.1 e) = some v ∧
      (reference (polled h e.subscriptionId)).bind atoi = some r ∧
      (notified e.subscriptionId y.output.notifications = true ↔ Compares logicOp (v - r) d)
  booleans : diff = str "0" → (∀ p ∈ polled (y :: h) e.subscriptionId, IsBoolean p.1) →
    ∃ before, previous (polled h e.subscriptionId) = some before ∧
      (notified e.subscriptionId y.output.notifications = true ↔
        Turns logicOp (isTrue before) (isTrue (polledValue y.event.1 e)))

/-- A poll does not end the process, and follows the law for each change subscription. -/
def PollsLawfully (h : ServiceHistory) (y : ServiceMove) : Prop :=
  y.event.2 = .subscriptTick → y.after.status ≠ .panicked ∧
    ∀ e ∈ y.before.mgr.subscriptionList, ∀ logicOp diff,
      changeFilterOf e.filterList = some (logicOp, diff) → ChangeLaw h y e logicOp diff

/-- The invariant of an entry: its latest data point has the reference. -/
structure Followed (h : ServiceHistory) (e : SubscriptionState) : Prop where
  path : e.path ≠ []
  known : polled h e.subscriptionId ≠ []
  integers : ∀ logicOp diff, changeFilterOf e.filterList = some (logicOp, diff) →
    (∀ p ∈ polled h e.subscriptionId, IsSmall p.1) →
      reference (polled h e.subscriptionId) = some (getDPValue e.latestDataPoint)
  booleans : ∀ logicOp diff, changeFilterOf e.filterList = some (logicOp, diff) →
    diff = str "0" → logicOp ∈ [str "eq", str "ne", str "gt", str "lt"] →
      (∀ p ∈ polled h e.subscriptionId, IsBoolean p.1) →
        previous (polled h e.subscriptionId) = some (getDPValue e.latestDataPoint)

section Law

variable {cfg : Config} {m : Moment} {h : ServiceHistory} {y : ServiceMove}
  {e e' : SubscriptionState} {logicOp diff latest current : GoString}

theorem IsSmall.type (m : Moment) (h : IsSmall latest) : analyzeValueType m latest = 1 := by
  obtain ⟨i, hi, -⟩ := h
  rw [analyzeValueType, if_pos (Option.isSome_of_mem hi)]

theorem IsBoolean.type (m : Moment) (h : IsBoolean latest) : analyzeValueType m latest = 2 := by
  rcases h with rfl | rfl
  · rfl
  · rfl

theorem wrapInt64_sub {i j : ℤ} (hi : i.natAbs < 2 ^ 62) (hj : j.natAbs < 2 ^ 62) :
    wrapInt64 (i - j) = i - j := by
  rw [wrapInt64, Int.emod_eq_of_lt (by omega) (by omega)]
  omega

theorem compares_change {v r d : ℤ} (hv : v.natAbs < 2 ^ 62) (hd : d.natAbs < 2 ^ 62) :
    Compares logicOp (wrapInt64 (v - d)) r ↔ Compares logicOp (v - r) d := by
  have hle : v - d ≤ r ↔ v - r ≤ d := by omega
  have hlt : v - d < r ↔ v - r < d := by omega
  have heq : v - d = r ↔ v - r = d := by omega
  have hgt : r < v - d ↔ d < v - r := by omega
  have hge : r ≤ v - d ↔ d ≤ v - r := by omega
  rw [wrapInt64_sub hv hd]
  simp only [Compares, ne_eq, gt_iff_lt, ge_iff_le, hle, hlt, heq, hgt, hge]

theorem compareValues_small (hlatest : IsSmall latest) (hcurrent : IsSmall current) :
    ∃ triggers, compareValues m logicOp latest current diff = (triggers, false) ∧
      (IsSmall diff → ∃ d v r, atoi diff = some d ∧ atoi current = some v ∧
        atoi latest = some r ∧ (triggers = true ↔ Compares logicOp (v - r) d)) := by
  have htype := (hlatest.type m).trans (hcurrent.type m).symm
  rw [compareValues, if_neg fun hne => hne htype, if_pos (hlatest.type m)]
  obtain ⟨r, hr, -⟩ := hlatest
  obtain ⟨v, hv, hsmall⟩ := hcurrent
  rw [Option.mem_def.mp hr, Option.mem_def.mp hv]
  cases hdiff : atoi diff with
  | none =>
    refine ⟨false, rfl, ?_⟩
    rintro ⟨d, hd, -⟩
    rw [hdiff] at hd
    cases hd
  | some d =>
    refine ⟨_, rfl, ?_⟩
    rintro ⟨d', hd', hsmall'⟩
    obtain rfl := Option.some.inj (hdiff.symm.trans hd')
    exact ⟨d, v, r, rfl, rfl, rfl, compareInts_iff.trans (compares_change hsmall hsmall')⟩

theorem compareTexts_boolean (hlatest : IsBoolean latest) (hcurrent : IsBoolean current) :
    ((compareTexts logicOp latest current).1 = true ↔
        Turns logicOp (isTrue latest) (isTrue current)) ∧
      ((compareTexts logicOp latest current).2 = true ↔
        logicOp ∈ [str "eq", str "ne", str "gt", str "lt"]) := by
  unfold compareTexts Turns isTrue
  split
  · next hop =>
    rcases hlatest with rfl | rfl <;> rcases hcurrent with rfl | rfl <;> simp +decide [hop]
  split
  · next hop =>
    rcases hlatest with rfl | rfl <;> rcases hcurrent with rfl | rfl <;> simp +decide [hop]
  split
  · next hop =>
    rcases hlatest with rfl | rfl <;> rcases hcurrent with rfl | rfl <;> simp +decide [hop]
  split
  · next hop =>
    rcases hlatest with rfl | rfl <;> rcases hcurrent with rfl | rfl <;> simp +decide [hop]
  · simp [*]

theorem compareValues_boolean (hlatest : IsBoolean latest) (hcurrent : IsBoolean current) :
    compareValues m logicOp latest current (str "0") = compareTexts logicOp latest current := by
  have htype := (hlatest.type m).trans (hcurrent.type m).symm
  rw [compareValues, if_neg fun hne => hne htype, hlatest.type m, if_neg (by decide),
    if_neg (by decide), if_neg fun hne => hne rfl]

/-- Other operators never compare booleans. -/
theorem compareValues_other (hcurrent : IsBoolean current)
    (hop : logicOp ∉ [str "eq", str "ne", str "gt", str "lt"]) :
    compareValues m logicOp latest current (str "0") = (false, false) := by
  simp only [List.mem_cons, List.not_mem_nil, or_false, not_or] at hop
  obtain ⟨heq, hne, hgt, hlt⟩ := hop
  rw [compareValues]
  by_cases htype : analyzeValueType m latest = analyzeValueType m current
  · rw [if_neg fun hne => hne htype, htype, hcurrent.type m, if_neg (by decide),
      if_neg (by decide), if_neg fun hne => hne rfl, compareTexts, if_neg heq, if_neg hne,
      if_neg hgt, if_neg hlt]
  · rw [if_pos htype]

theorem checkRangeChangeFilter_change {filterList : List FilterObject}
    {latestDataPoint path : GoString} (h : changeFilterOf filterList = some (logicOp, diff)) :
    checkRangeChangeFilter m filterList latestDataPoint path =
      ((compareValues m logicOp (getDPValue latestDataPoint) (getDPValue (m.vehicleData path))
        diff).1,
        (compareValues m logicOp (getDPValue latestDataPoint) (getDPValue (m.vehicleData path))
          diff).2, m.vehicleData path) := by
  induction filterList with
  | nil => simp [changeFilterOf] at h
  | cons f filterList ih =>
    rw [changeFilterOf] at h
    rw [checkRangeChangeFilter]
    by_cases hrange : f.type = str "range"
    · have hne : f.type ≠ str "change" := by
        rw [hrange]
        decide
      rw [List.find?_cons_of_pos (by simp [hrange]), Option.bind_eq_bind, Option.bind_some,
        if_neg hne] at h
      cases h
    · by_cases hchange : f.type = str "change"
      · rw [List.find?_cons_of_pos (by simp [hchange]), Option.bind_eq_bind, Option.bind_some,
          if_pos hchange] at h
        rw [if_neg hrange, if_pos hchange, evaluateChangeFilter, h]
      · rw [if_neg hrange, if_neg hchange]
        rw [List.find?_cons_of_neg (by simp [hrange, hchange])] at h
        exact ih h

/-- An entry with a path is checked without a panic. -/
theorem checkEntry_eq {path : GoString} {rest : List GoString} (hpath : e.path = path :: rest) :
    ∃ sent, checkEntry cfg m e = some ({ e with latestDataPoint :=
      if (checkRangeChangeFilter m e.filterList e.latestDataPoint path).2.1 = true ∨
        (checkRangeChangeFilter m e.filterList e.latestDataPoint path).1 = true then
        (checkRangeChangeFilter m e.filterList e.latestDataPoint path).2.2
      else e.latestDataPoint }, sent) ∧
      (sent ≠ [] ↔ (checkRangeChangeFilter m e.filterList e.latestDataPoint path).1 = true) := by
  have hhead : e.path.head? = some path := by rw [hpath, List.head?_cons]
  have hreadable : Readable cfg m e.path [] := by simp [Readable, dataSource, hpath]
  obtain ⟨dataPack, hdataPack⟩ :=
    Option.isSome_iff_exists.mp ((getDataPack_isSome cfg m e.path []).mpr hreadable)
  obtain ⟨message, hmessage⟩ := Option.isSome_iff_exists.mp
    (addPackage_finalizeMessage (subscriptionMapOf m e) (str "data") dataPack)
  rw [checkEntry, hhead, Option.bind_eq_bind, Option.bind_some]
  generalize checkRangeChangeFilter m e.filterList e.latestDataPoint path = checked
  obtain ⟨doTrigger, updateLatest, triggerDataPoint⟩ := checked
  cases doTrigger with
  | true =>
    refine ⟨[message], ?_, by simp⟩
    simp [hdataPack, notification, hmessage]
  | false => exact ⟨[], by simp, by simp⟩

theorem checkEntries_total {l : List SubscriptionState} (hpaths : ∀ e ∈ l, e.path ≠ []) :
    ∃ l' messages, checkEntries cfg m l = some (l', messages) := by
  induction l with
  | nil => exact ⟨[], [], rfl⟩
  | cons e l ih =>
    obtain ⟨path, rest, hpath⟩ := List.exists_cons_of_ne_nil (hpaths e List.mem_cons_self)
    obtain ⟨sent, hsent, -⟩ := @checkEntry_eq cfg m _ _ _ hpath
    obtain ⟨l', messages, hl⟩ := ih fun e he => hpaths e (List.mem_cons_of_mem _ he)
    exact ⟨_, _, by simp [checkEntries, hsent, hl]; exact ⟨rfl, rfl⟩⟩

/-- A poll of entries that all have a path. -/
theorem serviceStep_poll {x x' : Service} {output : Output}
    (hstep : serviceStep cfg x (m, .subscriptTick) = some (x', output))
    (hpaths : ∀ e ∈ x.mgr.subscriptionList, e.path ≠ []) :
    checkEntries cfg m x.mgr.subscriptionList =
      some (x'.mgr.subscriptionList, output.notifications) ∧ x'.status ≠ .panicked := by
  obtain ⟨l', messages, hl⟩ := @checkEntries_total cfg m _ hpaths
  have htrigger : handleTrigger cfg m x.mgr .subscriptTick =
      some ({ x.mgr with subscriptionList := l' }, messages) := by
    simp [handleTrigger, hl]
  simp only [serviceStep] at hstep
  split at hstep
  · cases hstep
  · next hguard =>
    rw [triggerStep, htrigger] at hstep
    obtain ⟨rfl, rfl⟩ := Prod.mk.inj (Option.some.inj hstep)
    refine ⟨hl, ?_⟩
    dsimp only
    split
    · intro hpanicked
      exact hguard (.inr ⟨by rw [hpanicked]; decide, by rw [hpanicked]; decide⟩)
    · decide

theorem find?_entry {l : List SubscriptionState}
    (hnodup : (l.map SubscriptionState.subscriptionId).Nodup) (he : e ∈ l) :
    l.find? (fun e' => e'.subscriptionId = e.subscriptionId) = some e := by
  obtain ⟨e', hfind⟩ :
      ∃ e', l.find? (fun e' => e'.subscriptionId = e.subscriptionId) = some e' :=
    Option.isSome_iff_exists.mp (List.find?_isSome.mpr ⟨e, he, by simp⟩)
  have hid : e'.subscriptionId = e.subscriptionId := by simpa using List.find?_some hfind
  rw [hfind, List.inj_on_of_nodup_map hnodup (List.mem_of_find?_eq_some hfind) he hid]

theorem Followed.congr (hfollowed : Followed h e) {h' : ServiceHistory}
    (hid : e'.subscriptionId = e.subscriptionId) (hpath : e'.path = e.path)
    (hfilter : e'.filterList = e.filterList) (hlatest : e'.latestDataPoint = e.latestDataPoint)
    (hpolled : polled h' e.subscriptionId = polled h e.subscriptionId) : Followed h' e' := by
  obtain ⟨hne, hknown, hintegers, hbooleans⟩ := hfollowed
  rw [← hpolled, ← hid] at hknown hintegers hbooleans
  rw [← hpath] at hne
  rw [← hfilter, ← hlatest] at hintegers hbooleans
  exact ⟨hne, hknown, hintegers, hbooleans⟩

/-- The move of a poll and what it does to an entry. -/
theorem poll_entry (hstep : y.Of (serviceStep cfg)) (hevent : y.event = (m, .subscriptTick))
    (hnodup : (y.before.mgr.subscriptionList.map SubscriptionState.subscriptionId).Nodup)
    (hpaths : ∀ e ∈ y.before.mgr.subscriptionList, e.path ≠ [])
    (he : e ∈ y.before.mgr.subscriptionList) {path : GoString} {rest : List GoString}
    (hpath : e.path = path :: rest) :
    notified e.subscriptionId y.output.notifications =
        (checkRangeChangeFilter m e.filterList e.latestDataPoint path).1 ∧
      polled (y :: h) e.subscriptionId = (getDPValue (m.vehicleData path),
        notified e.subscriptionId y.output.notifications) :: polled h e.subscriptionId := by
  obtain ⟨x, event, x', output⟩ := y
  obtain rfl : event = (m, .subscriptTick) := hevent
  obtain ⟨hchecked, -⟩ := serviceStep_poll hstep hpaths
  obtain ⟨sent, hsent, htriggers⟩ := @checkEntry_eq cfg m e path rest hpath
  constructor
  · dsimp only
    rw [notified_checkEntries hchecked hnodup he hsent, Bool.eq_iff_iff, decide_eq_true_eq,
      htriggers]
  · simp only [polled, find?_entry hnodup he, polledValue, hpath, List.head?_cons,
      Option.getD_some]

theorem reference_mem {values : List (GoString × Bool)} (h : reference values = some current) :
    ∃ p ∈ values, p.1 = current := by
  obtain ⟨p, hp, rfl⟩ := Option.map_eq_some_iff.mp h
  exact ⟨p, List.mem_of_find?_eq_some hp, rfl⟩

theorem previous_mem {values : List (GoString × Bool)} (h : previous values = some current) :
    ∃ p ∈ values, p.1 = current := by
  obtain ⟨p, hp, rfl⟩ := Option.map_eq_some_iff.mp h
  exact ⟨p, List.mem_of_mem_head? hp, rfl⟩

theorem reference_cons (value : GoString) (triggers : Bool) (values : List (GoString × Bool)) :
    reference ((value, triggers) :: values) =
      if triggers then some value else reference values := by
  cases triggers <;> rfl

/-- The entry behind a poll has the reference. -/
theorem Followed.poll (hfollowed : Followed h e) (hstep : y.Of (serviceStep cfg))
    (hevent : y.event = (m, .subscriptTick))
    (hnodup : (y.before.mgr.subscriptionList.map SubscriptionState.subscriptionId).Nodup)
    (hpaths : ∀ e ∈ y.before.mgr.subscriptionList, e.path ≠ [])
    (he : e ∈ y.before.mgr.subscriptionList) :
    Followed (y :: h) (triggered cfg m .subscriptTick e) := by
  obtain ⟨path, rest, hpath⟩ := List.exists_cons_of_ne_nil hfollowed.path
  obtain ⟨hnotified, hpolled⟩ := poll_entry (h := h) hstep hevent hnodup hpaths he hpath
  obtain ⟨sent, hsent, -⟩ := @checkEntry_eq cfg m e path rest hpath
  have htriggered : triggered cfg m .subscriptTick e = { e with latestDataPoint :=
      if (checkRangeChangeFilter m e.filterList e.latestDataPoint path).2.1 = true ∨
        (checkRangeChangeFilter m e.filterList e.latestDataPoint path).1 = true then
        (checkRangeChangeFilter m e.filterList e.latestDataPoint path).2.2
      else e.latestDataPoint } := by
    rw [triggered, hsent]
    rfl
  rw [htriggered]
  refine ⟨hfollowed.path, ?_, ?_, ?_⟩
  · dsimp only
    rw [hpolled]
    exact List.cons_ne_nil _ _
  · intro logicOp diff hfilter hvalues
    dsimp only at hfilter hvalues ⊢
    rw [hpolled] at hvalues ⊢
    obtain ⟨hcurrent, hvalues⟩ := List.forall_mem_cons.mp hvalues
    have hreference := hfollowed.integers logicOp diff hfilter hvalues
    obtain ⟨p, hp, hlatest⟩ := reference_mem hreference
    obtain ⟨triggers, hcompare, -⟩ := @compareValues_small m logicOp diff _ _
      (hlatest ▸ hvalues p hp) hcurrent
    rw [hnotified, checkRangeChangeFilter_change hfilter, hcompare, reference_cons, hreference]
    cases triggers <;> rfl
  · intro logicOp diff hfilter hdiff hop hvalues
    dsimp only at hfilter hvalues ⊢
    rw [hpolled] at hvalues ⊢
    obtain ⟨hcurrent, hvalues⟩ := List.forall_mem_cons.mp hvalues
    have hprevious := hfollowed.booleans logicOp diff hfilter hdiff hop hvalues
    obtain ⟨p, hp, hlatest⟩ := previous_mem hprevious
    have hboolean : IsBoolean (getDPValue e.latestDataPoint) := hlatest ▸ hvalues p hp
    have hupdates := ((@compareTexts_boolean logicOp _ _ hboolean hcurrent).2).mpr hop
    subst hdiff
    rw [checkRangeChangeFilter_change hfilter, compareValues_boolean hboolean hcurrent]
    dsimp only
    rw [if_pos (.inl hupdates)]
    rfl

/-- A poll follows the law where the latest data point has the reference. -/
theorem Followed.law (hfollowed : Followed h e) (hstep : y.Of (serviceStep cfg))
    (hevent : y.event = (m, .subscriptTick))
    (hnodup : (y.before.mgr.subscriptionList.map SubscriptionState.subscriptionId).Nodup)
    (hpaths : ∀ e ∈ y.before.mgr.subscriptionList, e.path ≠ [])
    (he : e ∈ y.before.mgr.subscriptionList)
    (hfilter : changeFilterOf e.filterList = some (logicOp, diff)) :
    ChangeLaw h y e logicOp diff := by
  obtain ⟨path, rest, hpath⟩ := List.exists_cons_of_ne_nil hfollowed.path
  obtain ⟨hnotified, hpolled⟩ := poll_entry (h := h) hstep hevent hnodup hpaths he hpath
  have hvalue : polledValue y.event.1 e = getDPValue (m.vehicleData path) := by
    rw [hevent, polledValue, hpath]
    rfl
  constructor
  · intro hsmall hvalues
    rw [hpolled] at hvalues
    obtain ⟨hcurrent, hvalues⟩ := List.forall_mem_cons.mp hvalues
    have hreference := hfollowed.integers logicOp diff hfilter hvalues
    obtain ⟨p, hp, hlatest⟩ := reference_mem hreference
    obtain ⟨triggers, hcompare, hlaw⟩ := @compareValues_small m logicOp diff _ _
      (hlatest ▸ hvalues p hp) hcurrent
    obtain ⟨d, v, r, hd, hv, hr, hiff⟩ := hlaw hsmall
    refine ⟨d, v, r, hd, hvalue ▸ hv, ?_, ?_⟩
    · rw [hreference, Option.bind_some, hr]
    · rw [hnotified, checkRangeChangeFilter_change hfilter, hcompare]
      exact hiff
  · intro hdiff hvalues
    subst hdiff
    rw [hpolled] at hvalues
    obtain ⟨hcurrent, hvalues⟩ := List.forall_mem_cons.mp hvalues
    rw [hnotified, checkRangeChangeFilter_change hfilter, hvalue]
    by_cases hop : logicOp ∈ [str "eq", str "ne", str "gt", str "lt"]
    · have hprevious := hfollowed.booleans logicOp _ hfilter rfl hop hvalues
      obtain ⟨p, hp, hlatest⟩ := previous_mem hprevious
      have hboolean : IsBoolean (getDPValue e.latestDataPoint) := hlatest ▸ hvalues p hp
      refine ⟨_, hprevious, ?_⟩
      rw [compareValues_boolean hboolean hcurrent]
      exact (compareTexts_boolean hboolean hcurrent).1
    · obtain ⟨p, values, hknown⟩ := List.exists_cons_of_ne_nil hfollowed.known
      refine ⟨p.1, by rw [hknown]; rfl, ?_⟩
      rw [compareValues_other hcurrent hop]
      simp only [List.mem_cons, List.not_mem_nil, or_false, not_or] at hop
      simp [Turns, hop]

/-- A subscribe request with an answer starts with its value. -/
theorem followed_subscribed {request : GoString} {id : ℤ}
    (hevent : y.event = (m, .request request)) (hid : y.before.mgr.subscriptionId = id)
    (he : subscribed m id (requestMapOf request) = some e) : Followed (y :: h) e := by
  have hsubscribed : e.subscriptionId = id ∧ ∃ path rest, e.path = path :: rest ∧
      e.latestDataPoint = m.vehicleData path := by
    unfold subscribed at he
    split at he
    · simp only [Option.bind_eq_bind, Option.bind_eq_some_iff, Option.some.injEq] at he
      obtain ⟨_, -, _, -, _, -, _, -, paths, -, path, hhead, rfl⟩ := he
      obtain ⟨rest, rfl⟩ := List.head?_eq_some_iff.mp hhead
      exact ⟨rfl, path, rest, rfl, rfl⟩
    · cases he
  obtain ⟨hsame, path, rest, hpath, hlatest⟩ := hsubscribed
  have hpolled : polled (y :: h) e.subscriptionId =
      [(getDPValue (m.vehicleData path), true)] := by
    rw [hsame, polled, hevent]
    dsimp only
    rw [if_pos hid.symm, he, Option.toList_some, List.map_cons, List.map_nil, polledValue, hpath]
    rfl
  refine ⟨?_, ?_, ?_, ?_⟩
  · rw [hpath]
    exact List.cons_ne_nil _ _
  · rw [hpolled]
    exact List.cons_ne_nil _ _
  · intro logicOp diff _ _
    rw [hpolled, hlatest]
    rfl
  · intro logicOp diff _ _ _ _
    rw [hpolled, hlatest]
    rfl

/-- The entries behind a step have their references. -/
theorem followed_next (hfresh : Fresh y.before.mgr)
    (hbefore : ∀ e ∈ y.before.mgr.subscriptionList, Followed h e)
    (hstep : y.Of (serviceStep cfg)) :
    ∀ e ∈ y.after.mgr.subscriptionList, Followed (y :: h) e := by
  obtain ⟨x, ⟨m, event⟩, x', output⟩ := y
  dsimp only at hfresh hbefore ⊢
  have htriggered : (∀ request, event ≠ .request request) →
      (∀ e ∈ x.mgr.subscriptionList,
        Followed (⟨x, (m, event), x', output⟩ :: h) (triggered cfg m event e)) →
      (x'.mgr = x.mgr → ∀ e ∈ x.mgr.subscriptionList,
        Followed (⟨x, (m, event), x', output⟩ :: h) e) →
      ∀ e ∈ x'.mgr.subscriptionList, Followed (⟨x, (m, event), x', output⟩ :: h) e := by
    intro hevent hmap hsame
    rcases (serviceStep_trigger hevent hstep).2 with ⟨messages, htrigger⟩ | ⟨heq, -⟩
    · have hentries := handleTrigger_entries hfresh htrigger
      intro e he
      have hmem : e ∈ entries x'.mgr := he
      rw [hentries] at hmem
      obtain ⟨e', he', rfl⟩ := Multiset.mem_map.mp hmem
      exact hmap e' he'
    · rw [heq]
      exact hsame heq
  cases event with
  | request request =>
    have hold : ∀ e ∈ x.mgr.subscriptionList,
        Followed (⟨x, (m, .request request), x', output⟩ :: h) e := by
      intro e he
      refine (hbefore e he).congr rfl rfl rfl rfl ?_
      have hne : e.subscriptionId ≠ x.mgr.subscriptionId := (hfresh.entries e he).ne
      simp only [polled, if_neg hne]
    rcases (serviceStep_request hstep).2 with ⟨hback, -⟩ | ⟨hsame, -⟩
    · have hentries := (handleRequest_entries hfresh.nodup hback).1
      intro e he
      have hmem : e ∈ entries x'.mgr := he
      rw [hentries, Multiset.mem_add] at hmem
      rcases hmem with hmem | hmem
      · exact hold e (Multiset.mem_filter.mp hmem).1
      · exact followed_subscribed rfl rfl (Option.mem_toList.mp hmem)
    · rw [hsame]
      exact hold
  | subscriptTick =>
    have hpaths : ∀ e ∈ x.mgr.subscriptionList, e.path ≠ [] := fun e he => (hbefore e he).path
    have hpoll := fun e he => (hbefore e he).poll hstep rfl hfresh.nodup hpaths he
    obtain ⟨hchecked, -⟩ := serviceStep_poll hstep hpaths
    intro e he
    rw [checkEntries_eq_map hchecked] at he
    obtain ⟨e', he', rfl⟩ := List.mem_map.mp he
    exact hpoll e' he'
  | dummyTick =>
    refine htriggered (by simp) ?_ ?_
    · exact fun e he => (hbefore e he).congr rfl rfl rfl rfl rfl
    · exact fun _ e he => (hbefore e he).congr rfl rfl rfl rfl rfl
  | interval id =>
    refine htriggered (by simp) ?_ ?_
    · exact fun e he => (hbefore e he).congr rfl rfl rfl rfl rfl
    · exact fun _ e he => (hbefore e he).congr rfl rfl rfl rfl rfl
  | clPack id dataPack =>
    refine htriggered (by simp) ?_ ?_
    · intro e he
      rw [triggered]
      split
      · exact (hbefore e he).congr rfl rfl rfl rfl rfl
      · exact (hbefore e he).congr rfl rfl rfl rfl rfl
    · exact fun _ e he => (hbefore e he).congr rfl rfl rfl rfl rfl
  | capture =>
    refine htriggered (by simp) ?_ ?_
    · exact fun e he => (hbefore e he).congr rfl rfl rfl rfl rfl
    · exact fun _ e he => (hbefore e he).congr rfl rfl rfl rfl rfl

theorem ServiceRun.followed {x : Service} (hrun : ServiceRun cfg h x) :
    ∀ e ∈ x.mgr.subscriptionList, Followed h e := by
  induction hrun with
  | start hx =>
    rw [hx]
    exact fun e he => absurd he List.not_mem_nil
  | next hrun hy ih => exact followed_next (ServiceRun.fresh hrun) ih hy

end Law

/-- In every run each poll of a change subscription notifies by the law: booleans are compared
with the previous poll, integers with the latest value that was notified. -/
theorem change_filter_law {cfg : Config} {h : ServiceHistory} {x : Service}
    (hrun : ServiceRun cfg h x) : Always PollsLawfully h := by
  induction hrun with
  | start => trivial
  | @next h y hrun hy ih =>
    refine ⟨?_, ih⟩
    intro hevent
    have hfresh := ServiceRun.fresh hrun
    have hfollowed := ServiceRun.followed hrun
    have hpaths : ∀ e ∈ y.before.mgr.subscriptionList, e.path ≠ [] :=
      fun e he => (hfollowed e he).path
    have hpair : y.event = (y.event.1, .subscriptTick) := Prod.ext rfl hevent
    refine ⟨?_, fun e he logicOp diff hfilter => ?_⟩
    · unfold Move.Of at hy
      rw [hpair] at hy
      exact (serviceStep_poll hy hpaths).2
    · exact (hfollowed e he).law hy hpair hfresh.nodup hpaths he hfilter

/-- A subscription to increases of more than five. -/
def changeRequest : GoString := str (
  "\x7b\"RouterId\":\"1?0\",\"action\":\"subscribe\",\"path\":\"Vehicle.Speed\"," ++
  "\"filter\":\x7b\"type\":\"change\",\"parameter\":" ++
  "\x7b\"logic-op\":\"gt\",\"diff\":\"5\"\x7d\x7d\x7d")

def momentAt (value : String) : Moment :=
  { sampleMoment with
    vehicleData _ :=
      str ("\x7b\"value\":\"" ++ value ++ "\", \"ts\":\"2024-05-01T07:59:59Z\"\x7d") }

/-- Polls four, six and ten above the value at the subscribe request. -/
theorem change_filter_speeds : ∃ h x, ServiceRun sampleConfig h x ∧
    h.map (fun y => notified 1 y.output.notifications) = [false, true, false, false] ∧
    Always PollsLawfully h := by
  obtain ⟨h, x, hrun, hnotified⟩ := exists_serviceRun sampleConfig
    [(momentAt "50", .request changeRequest), (momentAt "54", .subscriptTick),
      (momentAt "56", .subscriptTick), (momentAt "60", .subscriptTick)]
    (fun h => h.map (fun y => notified 1 y.output.notifications) = [false, true, false, false])
    (by decide +kernel)
  exact ⟨h, x, hrun, hnotified, change_filter_law hrun⟩

end VissServer.ServiceMgr
