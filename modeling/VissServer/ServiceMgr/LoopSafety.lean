import VissServer.ServiceMgr.CurveLogNotifications
import VissServer.ServiceMgr.Subscribing

/-!
The memory that a pass of the loop reads by an index or a pointer that it has computed. An
index of the subscription list comes from an id that a goroutine sends, and is -1 where the
subscription is gone; a ticker is a pointer, which is nil where it was not made.
-/
namespace VissServer.ServiceMgr

open Go Utils Runs

/-- An element of the subscription list, which has the given length, or the target of a
pointer to a ticker. The indexes that only count over the list are left out. -/
inductive Access
  | element (index : ℤ) (length : ℕ)
  | ticker (made : Bool)

def Access.Safe : Access → Prop
  | .element index length => 0 ≤ index ∧ index < length
  | .ticker made => made = true

instance : DecidablePred Access.Safe
  | .element _ _ => inferInstanceAs (Decidable (_ ∧ _))
  | .ticker _ => inferInstanceAs (Decidable (_ = _))

/-- What getSubcriptionStateIndex returns. -/
def listIndex (s : State) (id : ℤ) : ℤ :=
  match getSubcriptionStateIndex id s.subscriptionList with
  | none => -1
  | some index => index

/-- Copy the last element to the index. -/
def removeAccesses (index : ℤ) (length : ℕ) : List Access :=
  [.element index length, .element (length - 1) length]

/-- The ticker of an interval subscription is stopped. -/
def stopAccesses (s : State) (e : SubscriptionState) : List Access :=
  if isTimebased e then
    match tickerSlot s e.subscriptionId with
    | none => []
    | some i => [.ticker (s.subscriptionTicker i).isSome]
  else []

def deactivateAccesses (s : State) (id : ℤ) : List Access :=
  let index := listIndex s id
  if index = -1 then []
  else .element index s.subscriptionList.length ::
    match s.subscriptionList.find? fun e => e.subscriptionId = id with
    | none => []
    | some e => stopAccesses s e ++
        if isCurveLog e then [] else removeAccesses index s.subscriptionList.length

def killAccesses (routerId : GoString) : ℕ → State → List Access
  | 0, _ => []
  | passes + 1, s =>
      match s.subscriptionList.find? fun e => e.routerId = routerId with
      | none => []
      | some e => deactivateAccesses s e.subscriptionId ++
          match scanAndRemoveListItem s routerId with
          | some (true, s) => killAccesses routerId passes s
          | _ => []

def requestAccesses (s : State) (requestMap : GoMap Json) : List Access :=
  match actionOf requestMap with
  | .unsubscribe =>
      match asString (valueAt requestMap (str "subscriptionId")) with
      | none => []
      | some id => deactivateAccesses s (atoiIgnoringError id)
  | .killSubscriptions =>
      killAccesses (textMember requestMap (str "RouterId")) (s.subscriptionList.length + 1) s
  | .cancelSubscription =>
      match cancelled s requestMap with
      | none => []
      | some e => deactivateAccesses s e.subscriptionId
  | _ => []

/-- A pack counts its entry, may take it out of the list, and names the entry at its index. -/
def clPackAccesses (s : State) (id : ℤ) : List Access :=
  let index := listIndex s id
  let length := s.subscriptionList.length
  let removes : Bool := id = s.closeClSubId ∧
    (s.subscriptionList.find? fun e => e.subscriptionId = id).map
      SubscriptionState.subscriptionThreads = some 1
  .element index length :: .element index length ::
    if removes then removeAccesses index length ++ [.element index (length - 1)]
    else [.element index length]

/-- The select of a pass reads the channel of the dummyTicker first. -/
def passAccesses (cfg : Config) (s : State) (r : Event) : List Access :=
  .ticker (!cfg.stateDbNone) ::
    match r with
    | .request request => requestAccesses s (requestMapOf request)
    | .interval id => [.element (listIndex s id) s.subscriptionList.length]
    | .clPack id _ => clPackAccesses s id
    | _ => []

/-- The pass of the loop, if the step is one, makes safe accesses. -/
def SafePass (cfg : Config) (y : CaptureMove) : Prop :=
  ∀ r ∈ received y.before y.event.2, ∀ a ∈ passAccesses cfg y.before.service.mgr r, a.Safe
  deriving Decidable

/-- The id of an interval tick is in the list. -/
def Known (s : State) : Event → Prop
  | .interval id => ∃ e ∈ s.subscriptionList, e.subscriptionId = id
  | _ => True

instance (s : State) : DecidablePred (Known s)
  | .interval id => inferInstanceAs (Decidable (∃ e ∈ s.subscriptionList, e.subscriptionId = id))
  | .request _ => .isTrue trivial
  | .dummyTick => .isTrue trivial
  | .clPack _ _ => .isTrue trivial
  | .subscriptTick => .isTrue trivial
  | .capture => .isTrue trivial

/-- There is a dummyTicker, and the subscription of an interval tick is in the list. -/
def KnownTick (cfg : Config) (y : CaptureMove) : Prop :=
  ∀ r ∈ received y.before y.event.2, cfg.stateDbNone = false ∧ Known y.before.service.mgr r
  deriving Decidable

/-- The ids are no ids of free slots, and the other slots have tickers. -/
structure Tickered (s : State) : Prop where
  positive : ∀ e ∈ s.subscriptionList, 0 < e.subscriptionId
  made : ∀ i, s.tickerIndexList i ≠ 0 → (s.subscriptionTicker i).isSome = true

section

variable {cfg : Config} {m : Moment} {s s' : State} {requestMap : GoMap Json}

theorem Tickered.deactivateInterval (hs : Tickered s) {id : ℤ}
    (h : ServiceMgr.deactivateInterval s id = some s') : Tickered s' := by
  simp only [ServiceMgr.deactivateInterval, Option.bind_eq_bind, Option.bind_eq_some_iff,
    Option.some.injEq] at h
  obtain ⟨i, -, ticker, -, rfl⟩ := h
  refine ⟨hs.positive, fun j hj => ?_⟩
  dsimp only at hj ⊢
  by_cases hij : j = i
  · subst hij
    simp
  · rw [Function.update_of_ne hij] at hj ⊢
    exact hs.made j hj

theorem Tickered.deactivateEntry (hs : Tickered s) {index : ℕ} {e : SubscriptionState}
    (hget : s.subscriptionList[index]? = some e)
    (h : ServiceMgr.deactivateEntry s index e = some s') : Tickered s' := by
  have hmem : ∀ e' ∈ s'.subscriptionList, e' ∈ s.subscriptionList :=
    (Deactivations.step (P := fun _ _ => True) hget trivial h (.none s')).mem
  rw [ServiceMgr.deactivateEntry, Option.map_eq_some_iff] at h
  obtain ⟨s₁, hstop, rfl⟩ := h
  have hs₁ : Tickered s₁ := by
    unfold stopTrigger at hstop
    split at hstop
    · exact hs.deactivateInterval hstop
    · split at hstop
      · obtain rfl := Option.some.inj hstop
        exact ⟨hs.positive, hs.made⟩
      · obtain rfl := Option.some.inj hstop
        exact hs
  refine ⟨fun e' he' => hs.positive e' (hmem e' he'), ?_⟩
  split
  · exact hs₁.made
  · exact hs₁.made

theorem Tickered.deactivations (hs : Tickered s) {P : State → SubscriptionState → Prop}
    (h : Deactivations P s s') : Tickered s' := by
  induction h with
  | none => exact hs
  | step hget _ hentry _ ih => exact ih (hs.deactivateEntry hget hentry)

theorem activateIfIntervalOrCL_made {filterList : List FilterObject} {id : ℤ}
    {paths : List GoString}
    (h : activateIfIntervalOrCL s filterList id paths = some s')
    (hmade : ∀ i, s.tickerIndexList i ≠ 0 → (s.subscriptionTicker i).isSome = true) :
    ∀ i, s'.tickerIndexList i ≠ 0 → (s'.subscriptionTicker i).isSome = true := by
  induction filterList with
  | nil =>
    obtain rfl := Option.some.inj h
    exact hmade
  | cons f filterList ih =>
    rw [activateIfIntervalOrCL] at h
    split at h
    · dsimp only at h
      split at h
      · unfold activateInterval at h
        split at h
        · obtain rfl := Option.some.inj h
          exact hmade
        · next slot _ =>
          dsimp only at h
          split at h
          · simp at h
          · obtain rfl := Option.some.inj h
            intro i hi
            dsimp only at hi ⊢
            by_cases hslot : i = slot
            · subst hslot
              simp
            · rw [Function.update_of_ne hslot] at hi ⊢
              exact hmade i hi
      · obtain rfl := Option.some.inj h
        exact hmade
    · split at h
      · obtain rfl := Option.some.inj h
        exact hmade
      · exact ih h

theorem Tickered.effect (hs : Tickered s) (hfresh : Fresh s) (h : Effect m s requestMap s') :
    Tickered s' := by
  cases h with
  | quiet => exact ⟨hs.positive, hs.made⟩
  | unsubscribe _ _ hdeactivations => exact hs.deactivations hdeactivations
  | kill _ _ hdeactivations => exact hs.deactivations hdeactivations
  | @cancel _ _ _ errorResponseMap _ _ _ _ _ hdeactivations =>
    have hquiet : Tickered { s with errorResponseMap } := ⟨hs.positive, hs.made⟩
    exact hquiet.deactivations hdeactivations
  | subscribe _ _ _ _ _ _ hactivate =>
    have hmade := activateIfIntervalOrCL_made hactivate hs.made
    refine ⟨fun e he => ?_, hmade⟩
    dsimp only at he
    rw [(activateIfIntervalOrCL_some hactivate).1] at he
    rcases List.mem_append.mp he with he | he
    · exact hs.positive e he
    · rw [List.mem_singleton.mp he]
      exact hfresh.positive

theorem Tickered.trigger (hs : Tickered s) (hfresh : Fresh s) {r : Event}
    {messages : List GoString} (h : handleTrigger cfg m s r = some (s', messages)) :
    Tickered s' := by
  obtain ⟨hlist, -, hslots, -⟩ := handleTrigger_some hfresh.threads h
  refine ⟨fun e' he' => ?_, ?_⟩
  · obtain ⟨e, he, -, hsame⟩ := (sameSubscriptions hlist).2 e' he'
    rw [hsame]
    exact hs.positive e he
  · rw [hslots, (handleTrigger_frame h).1]
    exact hs.made

theorem listIndex_some {id : ℤ} (h : ∃ e ∈ s.subscriptionList, e.subscriptionId = id) :
    0 ≤ listIndex s id ∧ listIndex s id < s.subscriptionList.length := by
  obtain ⟨e, he, hid⟩ := h
  unfold listIndex
  split
  · next hindex =>
    have hnot := List.findIdx?_eq_none_iff.mp hindex e he
    simp [hid] at hnot
  · next index hindex =>
    obtain ⟨hlt, -⟩ := List.findIdx?_eq_some_iff_getElem.mp hindex
    omega

theorem listIndex_none {id : ℤ} (h : ¬ ∃ e ∈ s.subscriptionList, e.subscriptionId = id) :
    listIndex s id = -1 := by
  unfold listIndex
  split
  · rfl
  · next index hindex =>
    obtain ⟨hlt, hid, -⟩ := List.findIdx?_eq_some_iff_getElem.mp hindex
    exact absurd ⟨_, List.getElem_mem hlt, by simpa using hid⟩ h

theorem removeAccesses_safe {index : ℤ} {length : ℕ} (h : 0 ≤ index ∧ index < length) :
    ∀ a ∈ removeAccesses index length, a.Safe := by
  intro a ha
  simp only [removeAccesses, List.mem_cons, List.not_mem_nil, or_false] at ha
  rcases ha with rfl | rfl
  · exact h
  · unfold Access.Safe
    omega

theorem stopAccesses_safe (hs : Tickered s) {e : SubscriptionState}
    (he : e ∈ s.subscriptionList) : ∀ a ∈ stopAccesses s e, a.Safe := by
  intro a ha
  unfold stopAccesses at ha
  split at ha
  · split at ha
    · simp at ha
    · next i hi =>
      rw [List.mem_singleton.mp ha]
      refine hs.made i ?_
      rw [tickerSlot_some hi]
      exact (hs.positive e he).ne'
  · simp at ha

theorem deactivateAccesses_safe (hs : Tickered s) (id : ℤ) :
    ∀ a ∈ deactivateAccesses s id, a.Safe := by
  intro a ha
  unfold deactivateAccesses at ha
  dsimp only at ha
  split at ha
  · simp at ha
  · next hindex =>
    have hbounds : 0 ≤ listIndex s id ∧ listIndex s id < s.subscriptionList.length := by
      refine listIndex_some ?_
      by_contra hnone
      exact hindex (listIndex_none hnone)
    rcases List.mem_cons.mp ha with rfl | ha
    · exact hbounds
    · split at ha
      · simp at ha
      · next e hfind =>
        rcases List.mem_append.mp ha with ha | ha
        · exact stopAccesses_safe hs (List.mem_of_find?_eq_some hfind) a ha
        · split at ha
          · simp at ha
          · exact removeAccesses_safe hbounds a ha

theorem killAccesses_safe (hs : Tickered s) (routerId : GoString) (passes : ℕ) :
    ∀ a ∈ killAccesses routerId passes s, a.Safe := by
  induction passes generalizing s with
  | zero => simp [killAccesses]
  | succ passes ih =>
    intro a ha
    rw [killAccesses] at ha
    split at ha
    · simp at ha
    · rcases List.mem_append.mp ha with ha | ha
      · exact deactivateAccesses_safe hs _ a ha
      · split at ha
        · next s₁ hscan =>
          rcases scanAndRemoveListItem_cases hscan with ⟨hfalse, -⟩ | ⟨e, -, -, hdeactivate⟩
          · simp at hfalse
          · have hstep : Deactivations (fun _ _ => True) s s₁ :=
              deactivateSubscriptionId_deactivations (fun _ _ => trivial) hdeactivate (.none s₁)
            exact ih (hs.deactivations hstep) a ha
        · simp at ha

theorem requestAccesses_safe (hs : Tickered s) (requestMap : GoMap Json) :
    ∀ a ∈ requestAccesses s requestMap, a.Safe := by
  unfold requestAccesses
  split
  · split
    · simp
    · exact deactivateAccesses_safe hs _
  · exact killAccesses_safe hs _ _
  · split
    · simp
    · exact deactivateAccesses_safe hs _
  · simp

/-- The entry of a pack is in the list and stays there. -/
theorem clPackAccesses_safe (hfresh : Fresh s) {id : ℤ} (hlogs : Logs s id) :
    ∀ a ∈ clPackAccesses s id, a.Safe := by
  obtain ⟨e, he, hid, -⟩ := hlogs
  have hbounds := listIndex_some ⟨e, he, hid⟩
  intro a ha
  unfold clPackAccesses at ha
  dsimp only at ha
  split at ha
  · next hremoves =>
    rw [decide_eq_true_eq, Option.map_eq_some_iff] at hremoves
    obtain ⟨-, e', hfind, hone⟩ := hremoves
    have hdown := hfresh.threads e' (List.mem_of_find?_eq_some hfind)
    omega
  · simp only [List.mem_cons, List.not_mem_nil, or_false] at ha
    rcases ha with rfl | rfl | rfl
    · exact hbounds
    · exact hbounds
    · exact hbounds

variable {h : CaptureHistory} {x x' : Capturing} {y : CaptureMove} {output : Output}

theorem received_clPack {e : CaptureEvent} {id : ℤ} {dataPack : GoString}
    (h : received x e = some (.clPack id dataPack)) : id ∈ x.sessionIds := by
  cases e with
  | clPack =>
    obtain ⟨clPack, hclPack, heq⟩ := Option.map_eq_some_iff.mp h
    rw [← (Event.clPack.inj heq).1]
    unfold Capturing.sessionIds
    exact List.mem_append_right _ (List.mem_map_of_mem (List.mem_of_head? hclPack))
  | interval =>
    simp only [received] at h
    split at h <;> simp at h
  | _ => simp [received] at h

theorem safePass_iff (hx : Logged cfg h y.before) (hs : Tickered y.before.service.mgr) :
    SafePass cfg y ↔ KnownTick cfg y := by
  refine forall₂_congr fun r hr => ?_
  unfold passAccesses
  rw [List.forall_mem_cons]
  refine and_congr (by simp [Access.Safe]) ?_
  cases r with
  | request request =>
    exact iff_of_true (requestAccesses_safe hs _) trivial
  | interval id =>
    simp only [List.mem_singleton, forall_eq]
    constructor
    · intro hsafe
      by_contra hnone
      rw [listIndex_none hnone] at hsafe
      exact absurd hsafe.1 (by decide)
    · exact listIndex_some
  | clPack id dataPack =>
    refine iff_of_true (clPackAccesses_safe hx.fresh (hx.sessions id ?_)) trivial
    obtain ⟨x, ⟨m, e⟩, x', output⟩ := y
    exact received_clPack hr
  | dummyTick => simp [Known]
  | subscriptTick => simp [Known]
  | capture => simp [Known]

theorem Tickered.next (hx : Logged cfg h y.before) (hs : Tickered y.before.service.mgr)
    (hy : y.Of (captureStep cfg)) : Tickered y.after.service.mgr := by
  obtain ⟨x, ⟨m, e⟩, x', output⟩ := y
  rcases captureStep_some hy with ⟨r, service, -, hpass, hafter⟩ | ⟨hgoroutine, -⟩
  · dsimp only at hafter
    subst hafter
    rcases loopPass_mgr hpass with hmgr | ⟨request, -, heffect⟩ | ⟨messages, htrigger⟩
    · exact hmgr ▸ hs
    · exact hs.effect hx.fresh heffect
    · exact hs.trigger hx.fresh htrigger
  · obtain ⟨n, hservice⟩ := hgoroutine.mgr
    dsimp only at hservice ⊢
    rw [hservice]
    exact ⟨hs.positive, hs.made⟩

end

/-- The safe passes of a run. -/
theorem loop_safety_iff {cfg : Config} {h : CaptureHistory} {x : Capturing}
    (hrun : CaptureRun cfg h x) :
    Always (fun _ y => SafePass cfg y) h ↔ Always (fun _ y => KnownTick cfg y) h := by
  refine hrun.always_iff (I := fun h x => Logged cfg h x ∧ Tickered x.service.mgr) ?_ ?_ ?_
  · rintro x rfl
    refine ⟨logged_initialCapturing cfg, ?_, ?_⟩
    · simp [initialCapturing, initialState]
    · intro i hi
      exact absurd rfl hi
  · rintro h y ⟨hx, hs⟩ hy
    exact safePass_iff hx hs
  · rintro h y ⟨hx, hs⟩ hy -
    exact ⟨hx.next hy, hs.next hx hy⟩

/-- A client subscribes to an interval and unsubscribes; a tick is on its way in between. -/
def tickEvents : List CaptureEvent :=
  [.request (intervalRequest "1000"), .tick ⟨0, by decide⟩, .interval 1, .tick ⟨0, by decide⟩,
    .request (str "\x7b\"RouterId\":\"1?0\",\"action\":\"unsubscribe\",\"subscriptionId\":\"1\"\x7d"),
    .interval 1]

/-- The first tick is sent for a subscription in the list. -/
theorem interval_tick_known : ∃ h x, CaptureRun sampleConfig h x ∧ h.length = 3 ∧
    Always (fun _ y => SafePass sampleConfig y) h := by
  obtain ⟨h, x, hrun, hlength, hknown⟩ := exists_captureRun sampleConfig
    ((tickEvents.take 3).map fun e => (sampleMoment, e))
    (fun h => h.length = 3 ∧ Always (fun _ y => KnownTick sampleConfig y) h) (by decide +kernel)
  exact ⟨h, x, hrun, hlength, (loop_safety_iff hrun).mpr hknown⟩

/-- The second tick arrives when its subscription is gone. -/
theorem interval_tick_unknown : ¬ ∀ cfg h x, CaptureRun cfg h x →
    Always (fun _ y => SafePass cfg y) h := by
  intro hall
  obtain ⟨h, x, hrun, hfault⟩ := exists_captureRun sampleConfig
    (tickEvents.map fun e => (sampleMoment, e))
    (fun h => ¬ Always (fun _ y => SafePass sampleConfig y) h) (by decide +kernel)
  exact hfault (hall sampleConfig h x hrun)

end VissServer.ServiceMgr
