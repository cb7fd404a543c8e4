import VissServer.ServiceMgr.HistoryGet
import VissServer.ServiceMgr.TickerTable

/-!
Runs of historyServer: control requests, history requests and the ticks of the recordings in any
order, next to the loop of the service manager, with which they share the ticker table.
-/
namespace VissServer.ServiceMgr

open Go Utils Runs

/-- The index expression of a slice of strings. -/
def elementAt (buffer : List GoString) (i : ℤ) : MayPanic GoString :=
  if 0 ≤ i then buffer[i.toNat]? else none

/-- The time of the latest sample, empty where there is none. -/
def latestTs (signal : HistoryList) : MayPanic GoString :=
  if signal.bufIndex > 0 then (elementAt signal.buffer (signal.bufIndex - 1)).map getDPTs
  else some []

/-- The sample behind the others; a store behind the end of the buffer panics. -/
def storeSample (signal : HistoryList) (dp : GoString) : MayPanic HistoryList := do
  let _ ← elementAt signal.buffer signal.bufIndex
  some { signal with
    buffer := signal.buffer.set signal.bufIndex.toNat dp
    bufIndex := signal.bufIndex + 1 }

/-- What getVehicleData gives is a parameter. -/
def captureHistoryValue (historyList : List HistoryList) (signalId : ℕ) (dp : GoString) :
    MayPanic (List HistoryList) := do
  let signal ← historyList[signalId]?
  let latest ← latestTs signal
  let signal ←
    if getDPTs dp ≠ latest ∧ signal.bufIndex < signal.bufSize - 1 then storeSample signal dp
    else some signal
  some (historyList.set signalId signal)

/-- What the selects of historyServer receive, and the passes of the loop. -/
inductive HistoryEvent
  | server (e : RecordingEvent)
  | capture (signalId : ℕ) (dp : GoString)
  | get (currentTs : ℤ) (request : GoString)

def panicsIn (x : Recording) (r : MayPanic (Recording × Output)) : Recording × Output :=
  r.getD ({ x with status := .panicked }, ⟨[], []⟩)

/-- The goroutines of the tickers send indexes of the list only, also of recordings that are
stopped. -/
def historyStep (cfg : Config) (x : Recording) : HistoryEvent → Option (Recording × Output)
  | .server e => recordingStep cfg x e
  | .capture signalId dp =>
      if ¬ cfg.historySupport ∨ x.status = .panicked ∨ x.historyList.length ≤ signalId then none
      else some (panicsIn x ((captureHistoryValue x.historyList signalId dp).map
        fun historyList => ({ x with historyList }, ⟨[], []⟩)))
  | .get currentTs request =>
      if ¬ cfg.historySupport ∨ x.status = .panicked then none
      else if x.listExists = false then some (x, ⟨[[]], []⟩)
      else some (panicsIn x ((processHistoryGet x.historyList currentTs request).map
        fun response => (x, ⟨[response], []⟩)))

abbrev HistoryMove := Move Recording HistoryEvent Output

abbrev HistoryHistory := History Recording HistoryEvent Output

abbrev HistoryRun (cfg : Config) (h : HistoryHistory) (x : Recording) : Prop :=
  Run (historyStep cfg) (fun x => ∃ leafPaths, x = initialRecording leafPaths) h x

/-! ## The property -/

/-- The index is within the buffer, which is as long as it says. -/
structure HistoryList.Sound (signal : HistoryList) : Prop where
  nonneg : 0 ≤ signal.bufIndex
  within : signal.bufIndex ≤ signal.bufSize
  length : signal.bufSize = signal.buffer.length

def EntriesSound (x : Recording) : Prop := ∀ signal ∈ x.historyList, signal.Sound

def ofHistory : HistoryEvent → Bool
  | .server (.loop _ _) => false
  | _ => true

/-- historyServer does not panic, the entries stay sound, and an error status changes nothing. -/
structure KeepsHistory (y : HistoryMove) : Prop where
  runs : ofHistory y.event = true → y.after.status ≠ .panicked
  entries : EntriesSound y.after
  refused : ∀ histCtrlReq, y.event = .server (.histCtrl histCtrlReq) →
    ∀ answer ∈ y.output.answers, answer ≠ str "200 OK" → y.after = y.before

/-! ## The condition -/

/-- The size is that of a slice and not below the number of samples. -/
def CreateFits (x : Recording) (requestMap : GoMap Json) (index : Option ℕ) : Prop :=
  ∃ n ∈ numberMember requestMap (str "buf-size"), ∀ bufSize ∈ n,
    ∃ k ∈ index, ∃ signal ∈ x.historyList[k]?,
      0 ≤ bufSize ∧ bufSize ≤ 2 ^ 44 ∧ signal.bufIndex ≤ bufSize
  deriving Decidable

/-- The frequency is one of a ticker, unless all tickers are in use. -/
def StartFits (x : Recording) (requestMap : GoMap Json) (index : Option ℕ) : Prop :=
  ∃ n ∈ numberMember requestMap (str "frequency"), ∀ frequency ∈ n,
    ∃ _ ∈ index, tickerSlot x.mgr 0 = none ∨ (0 < frequency ∧ frequency ≤ 3600 * 1000)
  deriving Decidable

/-- A slot has the number of the signal, and a history ticker. -/
def StopFits (x : Recording) (index : Option ℕ) : Prop :=
  ∃ k ∈ index, ∃ i ∈ tickerSlot x.mgr k, (x.historyTicker i).isSome = true
  deriving Decidable

def CommandFits (x : Recording) (requestMap : GoMap Json) (action : GoString)
    (index : Option ℕ) : Prop :=
  (action = str "create" → CreateFits x requestMap index) ∧
  (action = str "start" → StartFits x requestMap index) ∧
  (action = str "stop" → StopFits x index) ∧
  (action = str "delete" → index.isSome = true)
  deriving Decidable

/-- Where action and path are given they are strings, and the command fits the list. -/
def CtrlFits (x : Recording) (requestMap : GoMap Json) : Prop :=
  x.listExists = true → isNull (valueAt requestMap (str "action")) = false →
    isNull (valueAt requestMap (str "path")) = false →
      ∃ path ∈ asString (valueAt requestMap (str "path")),
        ∃ action ∈ asString (valueAt requestMap (str "action")),
          CommandFits x requestMap action (getHistoryListIndex path x.historyList)
  deriving Decidable

/-- Path and period are strings, and the path is in the list. -/
def GetFits (x : Recording) (requestMap : GoMap Json) : Prop :=
  x.listExists = true →
    ∃ path ∈ asString (valueAt requestMap (str "path")),
      (asString (valueAt requestMap (str "period"))).isSome = true ∧
        (getHistoryListIndex path x.historyList).isSome = true
  deriving Decidable

def EventFits (x : Recording) : HistoryEvent → Prop
  | .server (.histCtrl histCtrlReq) => CtrlFits x (requestMapOf histCtrlReq)
  | .get _ request => GetFits x (requestMapOf request)
  | _ => True

instance decidableEventFits (x : Recording) : ∀ e, Decidable (EventFits x e)
  | .server (.histCtrl histCtrlReq) =>
      inferInstanceAs (Decidable (CtrlFits x (requestMapOf histCtrlReq)))
  | .server (.loop _ _) => .isTrue trivial
  | .get _ request => inferInstanceAs (Decidable (GetFits x (requestMapOf request)))
  | .capture _ _ => .isTrue trivial

section Commands

variable {x x' : Recording} {requestMap : GoMap Json} {index : Option ℕ} {answer : GoString}
  {k : ℕ} {signal : HistoryList} {buffer : List GoString}

/-- An answer, with sound entries behind it. -/
def AnswersSoundly (r : MayPanic (Recording × GoString)) : Prop :=
  ∃ x answer, r = some (x, answer) ∧ EntriesSound x

theorem answersSoundly_some : AnswersSoundly (some (x, answer)) ↔ EntriesSound x := by
  constructor
  · rintro ⟨x', answer', heq, hsound⟩
    obtain ⟨rfl, -⟩ := Prod.mk.inj (Option.some.inj heq)
    exact hsound
  · exact fun hsound => ⟨x, answer, rfl, hsound⟩

theorem not_answersSoundly_none : ¬ AnswersSoundly none := by
  rintro ⟨x, answer, heq, -⟩
  exact nomatch heq

theorem entriesSound_modify (hx : EntriesSound x) (hget : x.historyList[k]? = some signal)
    (f : HistoryList → HistoryList) :
    EntriesSound (x.modifySignal k f) ↔ (f signal).Sound := by
  have hmodified : (x.historyList.modify k f)[k]? = some (f signal) := by
    rw [List.getElem?_modify_eq, hget]
    rfl
  constructor
  · intro hall
    exact hall _ (List.mem_of_getElem? hmodified)
  · intro hsound signal' hmem
    obtain ⟨j, hj⟩ := List.mem_iff_getElem?.mp hmem
    by_cases hjk : j = k
    · subst hjk
      obtain rfl := Option.some.inj (hmodified.symm.trans hj)
      exact hsound
    · have hold : (x.historyList.modify k f)[j]? = x.historyList[j]? :=
        List.getElem?_modify_ne _ _ (Ne.symm hjk)
      exact hx _ (List.mem_of_getElem? (hold.symm.trans hj))

theorem makeStrings_cases (length : ℤ) :
    (makeStrings length = none ∧ ¬ (0 ≤ length ∧ length ≤ 2 ^ 44)) ∨
    (makeStrings length = some (List.replicate length.toNat []) ∧ 0 ≤ length ∧
      length ≤ 2 ^ 44) := by
  unfold makeStrings
  split
  · exact .inl ⟨rfl, by omega⟩
  · exact .inr ⟨rfl, by omega⟩

theorem createCase_iff (hx : EntriesSound x)
    (hindex : ∀ k ∈ index, ∃ signal, x.historyList[k]? = some signal) :
    AnswersSoundly (createCase x requestMap index) ↔ CreateFits x requestMap index := by
  unfold createCase CreateFits
  cases numberMember requestMap (str "buf-size") with
  | none => exact iff_of_false not_answersSoundly_none nofun
  | some n =>
    simp only [Option.mem_some_iff, exists_eq_left', Option.bind_eq_bind, Option.bind_some]
    cases n with
    | none => exact iff_of_true (answersSoundly_some.mpr hx) nofun
    | some bufSize =>
      cases index with
      | none => exact iff_of_false not_answersSoundly_none (by simp)
      | some k =>
        obtain ⟨signal, hget⟩ := hindex k rfl
        simp only [Option.mem_some_iff, forall_eq', exists_eq_left', Option.bind_some, hget]
        rcases makeStrings_cases bufSize with ⟨hmake, hrange⟩ | ⟨hmake, hrange⟩
        · rw [hmake]
          exact iff_of_false not_answersSoundly_none fun h => hrange ⟨h.1, h.2.1⟩
        · rw [hmake, Option.bind_some, answersSoundly_some, entriesSound_modify hx hget]
          have hnonneg := (hx _ (List.mem_of_getElem? hget)).nonneg
          constructor
          · intro hsound
            exact ⟨hrange.1, hrange.2, hsound.within⟩
          · intro h
            refine ⟨hnonneg, h.2.2, ?_⟩
            dsimp only
            rw [List.length_replicate]
            omega

theorem period_of_frequency {frequency : ℤ} (hpos : 0 < frequency)
    (hle : frequency ≤ 3600 * 1000) :
    ¬ wrapInt64 (Int.tdiv (3600 * 1000) frequency * 1000000) ≤ 0 := by
  have hlow : 1 ≤ Int.tdiv (3600 * 1000) frequency := by
    rw [Int.tdiv_eq_ediv_of_nonneg (by omega), Int.le_ediv_iff_mul_le hpos]
    omega
  have hhigh : Int.tdiv (3600 * 1000) frequency ≤ 3600 * 1000 := by
    rw [Int.tdiv_eq_ediv_of_nonneg (by omega)]
    exact Int.ediv_le_self _ (by omega)
  generalize Int.tdiv (3600 * 1000) frequency = period at hlow hhigh
  rw [wrapInt64, Int.emod_eq_of_lt (by omega) (by omega)]
  omega

theorem activateHistory_cases (x : Recording) (signalId frequency : ℤ) :
    (activateHistory x signalId frequency = none ∧
      ¬ (tickerSlot x.mgr 0 = none ∨ (0 < frequency ∧ frequency ≤ 3600 * 1000))) ∨
    ∃ x', activateHistory x signalId frequency = some x' ∧ x'.historyList = x.historyList ∧
      (tickerSlot x.mgr 0 = none ∨ (0 < frequency ∧ frequency ≤ 3600 * 1000)) := by
  unfold activateHistory
  cases hslot : tickerSlot x.mgr 0 with
  | none => exact .inr ⟨x, rfl, rfl, .inl rfl⟩
  | some i =>
    dsimp only
    by_cases hzero : frequency = 0
    · rw [if_pos hzero]
      refine .inl ⟨rfl, ?_⟩
      rintro (hnone | hrange)
      · exact nomatch hnone
      · omega
    · rw [if_neg hzero]
      by_cases hperiod : wrapInt64 (Int.tdiv (3600 * 1000) frequency * 1000000) ≤ 0
      · rw [if_pos hperiod]
        refine .inl ⟨rfl, ?_⟩
        rintro (hnone | hrange)
        · exact nomatch hnone
        · exact absurd hperiod (period_of_frequency hrange.1 hrange.2)
      · rw [if_neg hperiod]
        exact .inr ⟨_, rfl, rfl, .inr (frequency_of_period hzero hperiod)⟩

theorem startCase_iff (hx : EntriesSound x)
    (hindex : ∀ k ∈ index, ∃ signal, x.historyList[k]? = some signal) :
    AnswersSoundly (startCase x requestMap index) ↔ StartFits x requestMap index := by
  unfold startCase StartFits
  cases numberMember requestMap (str "frequency") with
  | none => exact iff_of_false not_answersSoundly_none nofun
  | some n =>
    simp only [Option.mem_some_iff, exists_eq_left', Option.bind_eq_bind, Option.bind_some]
    cases n with
    | none => exact iff_of_true (answersSoundly_some.mpr hx) nofun
    | some frequency =>
      cases index with
      | none => exact iff_of_false not_answersSoundly_none (by simp)
      | some k =>
        obtain ⟨signal, hget⟩ := hindex k rfl
        simp only [Option.mem_some_iff, forall_eq', exists_eq_left', Option.bind_some]
        have hkept := (entriesSound_modify hx hget
          fun signal => { signal with frequency, status := 1 }).mpr
            ⟨(hx _ (List.mem_of_getElem? hget)).nonneg, (hx _ (List.mem_of_getElem? hget)).within,
              (hx _ (List.mem_of_getElem? hget)).length⟩
        rcases activateHistory_cases
            (x.modifySignal k fun signal => { signal with frequency, status := 1 }) k frequency with
          ⟨hactivate, hnot⟩ | ⟨x', hactivate, hlist, hfits⟩
        · rw [hactivate]
          exact iff_of_false not_answersSoundly_none hnot
        · rw [hactivate, Option.bind_some, answersSoundly_some]
          refine iff_of_true ?_ hfits
          intro signal' hmem
          rw [hlist] at hmem
          exact hkept signal' hmem

theorem stopCase_iff (hx : EntriesSound x)
    (hindex : ∀ k ∈ index, ∃ signal, x.historyList[k]? = some signal) :
    AnswersSoundly (stopCase x index) ↔ StopFits x index := by
  unfold stopCase StopFits
  cases index with
  | none => exact iff_of_false not_answersSoundly_none (by simp)
  | some k =>
    obtain ⟨signal, hget⟩ := hindex k rfl
    have hsignal := hx _ (List.mem_of_getElem? hget)
    have hkept := (entriesSound_modify hx hget fun signal => { signal with status := 0 }).mpr
      ⟨hsignal.nonneg, hsignal.within, hsignal.length⟩
    have hsame : (x.modifySignal k fun signal => { signal with status := 0 }).mgr = x.mgr := rfl
    simp only [Option.mem_some_iff, exists_eq_left', Option.bind_eq_bind, Option.bind_some,
      deactivateHistory, hsame]
    cases tickerSlot x.mgr k with
    | none => exact iff_of_false not_answersSoundly_none (by simp)
    | some i =>
      have hticker : (x.modifySignal k fun signal => { signal with status := 0 }).historyTicker =
        x.historyTicker := rfl
      simp only [Option.mem_some_iff, exists_eq_left', Option.bind_some, hticker]
      cases x.historyTicker i with
      | none => exact iff_of_false not_answersSoundly_none (by simp)
      | some ticker => exact iff_of_true (answersSoundly_some.mpr hkept) rfl

theorem deleteCase_iff (hx : EntriesSound x)
    (hindex : ∀ k ∈ index, ∃ signal, x.historyList[k]? = some signal) :
    AnswersSoundly (deleteCase x index) ↔ index.isSome = true := by
  unfold deleteCase
  cases index with
  | none => exact iff_of_false not_answersSoundly_none (by simp)
  | some k =>
    obtain ⟨signal, hget⟩ := hindex k rfl
    simp only [Option.bind_eq_bind, Option.bind_some, hget, Option.isSome_some, iff_true]
    split
    · exact answersSoundly_some.mpr hx
    · rw [answersSoundly_some, entriesSound_modify hx hget]
      exact ⟨le_rfl, le_rfl, rfl⟩

/-- The switch over the action. -/
theorem commandCases_iff {action : GoString} (hx : EntriesSound x)
    (hindex : ∀ k ∈ index, ∃ signal, x.historyList[k]? = some signal) :
    AnswersSoundly
        (if action = str "create" then createCase x requestMap index
        else if action = str "start" then startCase x requestMap index
        else if action = str "stop" then stopCase x index
        else if action = str "delete" then deleteCase x index
        else some (x, str "400 Bad Request")) ↔
      CommandFits x requestMap action index := by
  have hstart : str "start" ≠ str "create" := by decide
  have hstop : str "stop" ≠ str "create" ∧ str "stop" ≠ str "start" := by decide
  have hdelete : str "delete" ≠ str "create" ∧ str "delete" ≠ str "start" ∧
    str "delete" ≠ str "stop" := by decide
  unfold CommandFits
  by_cases h1 : action = str "create"
  · subst h1
    rw [if_pos rfl, createCase_iff hx hindex]
    simp [hstart.symm, hstop.1.symm, hdelete.1.symm]
  · rw [if_neg h1]
    by_cases h2 : action = str "start"
    · subst h2
      rw [if_pos rfl, startCase_iff hx hindex]
      simp [hstart, hstop.2.symm, hdelete.2.1.symm]
    · rw [if_neg h2]
      by_cases h3 : action = str "stop"
      · subst h3
        rw [if_pos rfl, stopCase_iff hx hindex]
        simp [hstop, hdelete.2.2.symm]
      · rw [if_neg h3]
        by_cases h4 : action = str "delete"
        · subst h4
          rw [if_pos rfl, deleteCase_iff hx hindex]
          simp [hdelete]
        · rw [if_neg h4, answersSoundly_some]
          simp [h1, h2, h3, h4, hx]

theorem processHistoryCtrl_iff (hx : EntriesSound x) (histCtrlReq : GoString) :
    AnswersSoundly (processHistoryCtrl x histCtrlReq) ↔
      CtrlFits x (requestMapOf histCtrlReq) := by
  unfold processHistoryCtrl CtrlFits
  dsimp only
  generalize requestMapOf histCtrlReq = requestMap
  cases hexists : x.listExists with
  | false => exact iff_of_true (answersSoundly_some.mpr hx) nofun
  | true =>
    rw [if_neg (by decide)]
    by_cases hnull : isNull (valueAt requestMap (str "action")) = true ∨
        isNull (valueAt requestMap (str "path")) = true
    · rw [if_pos hnull]
      refine iff_of_true (answersSoundly_some.mpr hx) ?_
      intro _ haction hpath
      rw [haction, hpath] at hnull
      exact absurd hnull (by decide)
    · rw [if_neg hnull]
      rw [not_or, Bool.not_eq_true, Bool.not_eq_true] at hnull
      simp only [hnull.1, hnull.2, forall_true_left]
      cases asString (valueAt requestMap (str "path")) with
      | none => exact iff_of_false not_answersSoundly_none (by simp)
      | some path =>
        have hindex : ∀ k ∈ getHistoryListIndex path x.historyList,
            ∃ signal, x.historyList[k]? = some signal := fun k hk => getHistoryListIndex_some hk
        cases asString (valueAt requestMap (str "action")) with
        | none => exact iff_of_false not_answersSoundly_none (by simp)
        | some action =>
          simp only [Option.mem_some_iff, exists_eq_left', Option.bind_eq_bind, Option.bind_some]
          exact commandCases_iff hx hindex

/-- An error status leaves the state as it was. -/
theorem processHistoryCtrl_refused {histCtrlReq : GoString}
    (h : processHistoryCtrl x histCtrlReq = some (x', answer)) (hanswer : answer ≠ str "200 OK") :
    x' = x := by
  have hsame : ∀ {status}, some (x, status) = some (x', answer) → x' = x := by
    intro status heq
    exact (Prod.mk.inj (Option.some.inj heq)).1.symm
  unfold processHistoryCtrl at h
  split at h
  · exact hsame h
  dsimp only at h
  split at h
  · exact hsame h
  simp only [Option.bind_eq_bind, Option.bind_eq_some_iff] at h
  obtain ⟨path, -, action, -, h⟩ := h
  split at h
  · simp only [createCase, Option.bind_eq_bind, Option.bind_eq_some_iff] at h
    obtain ⟨bufSize, -, h⟩ := h
    split at h
    · exact hsame h
    · simp only [Option.bind_eq_some_iff, Option.some.injEq, Prod.mk.injEq] at h
      obtain ⟨k, -, buffer, -, -, hok⟩ := h
      exact absurd hok.symm hanswer
  split at h
  · simp only [startCase, Option.bind_eq_bind, Option.bind_eq_some_iff] at h
    obtain ⟨frequency, -, h⟩ := h
    split at h
    · exact hsame h
    · simp only [Option.bind_eq_some_iff, Option.some.injEq, Prod.mk.injEq] at h
      obtain ⟨k, -, x₁, -, -, hok⟩ := h
      exact absurd hok.symm hanswer
  split at h
  · simp only [stopCase, Option.bind_eq_bind, Option.bind_eq_some_iff, Option.some.injEq,
      Prod.mk.injEq] at h
    obtain ⟨k, -, x₁, -, -, hok⟩ := h
    exact absurd hok.symm hanswer
  split at h
  · simp only [deleteCase, Option.bind_eq_bind, Option.bind_eq_some_iff] at h
    obtain ⟨k, -, signal, -, h⟩ := h
    split at h
    · exact hsame h
    · exact absurd (Prod.mk.inj (Option.some.inj h)).2.symm hanswer
  · exact hsame h

/-! ## Gets and captures -/

theorem elementAt_within {i : ℤ} (hlow : 0 ≤ i) (hhigh : i < buffer.length) :
    (elementAt buffer i).isSome = true := by
  have hlt : i.toNat < buffer.length := by omega
  rw [elementAt, if_pos hlow, List.getElem?_eq_getElem hlt]
  rfl

theorem processHistoryGet_isSome (hx : EntriesSound x) (currentTs : ℤ) (request : GoString) :
    (processHistoryGet x.historyList currentTs request).isSome = true ↔
      ∃ path ∈ asString (valueAt (requestMapOf request) (str "path")),
        (asString (valueAt (requestMapOf request) (str "period"))).isSome = true ∧
          (getHistoryListIndex path x.historyList).isSome = true := by
  unfold processHistoryGet
  dsimp only
  generalize requestMapOf request = requestMap
  cases asString (valueAt requestMap (str "path")) with
  | none => exact iff_of_false (by simp) (by simp)
  | some path =>
    cases asString (valueAt requestMap (str "period")) with
    | none => exact iff_of_false (by simp) (by simp)
    | some period =>
      simp only [Option.mem_some_iff, exists_eq_left', Option.bind_eq_bind, Option.bind_some,
        Option.isSome_some, true_and]
      cases hindex : getHistoryListIndex path x.historyList with
      | none => exact iff_of_false (by simp) (by simp)
      | some k =>
        obtain ⟨signal, hget⟩ := getHistoryListIndex_some hindex
        have hsignal := hx _ (List.mem_of_getElem? hget)
        have hnonneg := hsignal.nonneg
        have hwithin := hsignal.within
        have hlength := hsignal.length
        have hfilled : 0 + signal.bufIndex.toNat ≤ signal.buffer.length := by omega
        refine iff_of_true ?_ rfl
        simp only [hget, Option.bind_some, countMatches_eq hfilled]
        rw [historicDataPack_eq]
        · rfl
        · have hshort := (List.takeWhile_prefix (fun dp => decide
            (oldTs currentTs (convertFromIsoTime period) ≤ storedTs dp))
            (l := (signal.buffer.drop 0).take signal.bufIndex.toNat)).length_le
          rw [List.length_take] at hshort
          omega

/-- A tick stores its sample or does nothing. -/
theorem captureHistoryValue_sound (hx : EntriesSound x) {signalId : ℕ} (dp : GoString)
    (hsignal : signalId < x.historyList.length) :
    ∃ historyList, captureHistoryValue x.historyList signalId dp = some historyList ∧
      ∀ signal ∈ historyList, signal.Sound := by
  have hget : x.historyList[signalId]? = some x.historyList[signalId] :=
    List.getElem?_eq_getElem hsignal
  generalize x.historyList[signalId] = signal at hget
  have hsound := hx _ (List.mem_of_getElem? hget)
  have hnonneg := hsound.nonneg
  have hwithin := hsound.within
  have hlength := hsound.length
  have hset : ∀ signal', signal'.Sound → ∀ signal'' ∈ x.historyList.set signalId signal',
      signal''.Sound := by
    intro signal' hsignal' signal'' hmem
    rcases List.mem_or_eq_of_mem_set hmem with hmem | rfl
    · exact hx _ hmem
    · exact hsignal'
  obtain ⟨latest, hlatest⟩ : ∃ latest, latestTs signal = some latest := by
    unfold latestTs
    split
    · obtain ⟨dp', hdp'⟩ := Option.isSome_iff_exists.mp
        (@elementAt_within signal.buffer (signal.bufIndex - 1) (by omega) (by omega))
      exact ⟨getDPTs dp', by rw [hdp']; rfl⟩
    · exact ⟨[], rfl⟩
  unfold captureHistoryValue
  simp only [hget, hlatest, Option.bind_eq_bind, Option.bind_some]
  by_cases hstore : getDPTs dp ≠ latest ∧ signal.bufIndex < signal.bufSize - 1
  · obtain ⟨dp', hdp'⟩ := Option.isSome_iff_exists.mp
      (@elementAt_within signal.buffer signal.bufIndex hnonneg (by omega))
    rw [if_pos hstore, storeSample, hdp']
    refine ⟨_, rfl, hset _ ⟨?_, ?_, ?_⟩⟩
    · dsimp only
      omega
    · dsimp only
      omega
    · dsimp only
      rw [List.length_set]
      exact hlength
  · rw [if_neg hstore]
    exact ⟨_, rfl, hset signal hsound⟩

/-! ## Steps -/

theorem Controlled.status (h : Controlled x requestMap x') : x'.status = x.status := by
  cases h with
  | same => rfl
  | edit => rfl
  | start _ _ _ _ hactivate =>
    unfold activateHistory at hactivate
    split at hactivate
    · rw [← Option.some.inj hactivate]
      rfl
    · split at hactivate
      · exact nomatch hactivate
      · dsimp only at hactivate
        split at hactivate
        · exact nomatch hactivate
        · rw [← Option.some.inj hactivate]
          rfl
  | stop _ _ _ hdeactivate =>
    simp only [deactivateHistory, Option.bind_eq_bind, Option.bind_eq_some_iff,
      Option.some.injEq] at hdeactivate
    obtain ⟨i, -, ticker, -, rfl⟩ := hdeactivate
    rfl

variable {cfg : Config} {output : Output}

theorem histCtrl_exact {histCtrlReq : GoString} (hx : EntriesSound x)
    (h : historyStep cfg x (.server (.histCtrl histCtrlReq)) = some (x', output)) :
    KeepsHistory ⟨x, .server (.histCtrl histCtrlReq), x', output⟩ ↔
      CtrlFits x (requestMapOf histCtrlReq) := by
  rw [← processHistoryCtrl_iff hx]
  simp only [historyStep, recordingStep] at h
  split at h
  · cases h
  · next hguard =>
    rw [not_or] at hguard
    rw [Option.some.injEq, histCtrlStep] at h
    cases hctrl : processHistoryCtrl x histCtrlReq with
    | none =>
      rw [hctrl] at h
      obtain ⟨rfl, rfl⟩ := Prod.mk.inj h
      exact iff_of_false (fun hkeeps => hkeeps.runs rfl rfl) not_answersSoundly_none
    | some r =>
      obtain ⟨x₁, answer⟩ := r
      rw [hctrl] at h
      obtain ⟨rfl, rfl⟩ := Prod.mk.inj h
      rw [answersSoundly_some]
      constructor
      · exact fun hkeeps => hkeeps.entries
      · intro hentries
        refine ⟨fun _ => ?_, hentries, ?_⟩
        · have hstatus := (processHistoryCtrl_controlled hctrl).status
          dsimp only
          rw [hstatus]
          exact hguard.2
        · rintro req ⟨rfl⟩ answer' hanswer' hrefused
          obtain rfl := List.mem_singleton.mp hanswer'
          exact processHistoryCtrl_refused hctrl hrefused

theorem get_exact {currentTs : ℤ} {request : GoString} (hx : EntriesSound x)
    (h : historyStep cfg x (.get currentTs request) = some (x', output)) :
    KeepsHistory ⟨x, .get currentTs request, x', output⟩ ↔ GetFits x (requestMapOf request) := by
  simp only [historyStep] at h
  split at h
  · exact nomatch h
  · next hguard =>
    rw [not_or] at hguard
    have hkeeps : ∀ output, KeepsHistory ⟨x, .get currentTs request, x, output⟩ :=
      fun output => ⟨fun _ => hguard.2, hx, nofun⟩
    split at h
    · next hnone =>
      obtain ⟨rfl, rfl⟩ := Prod.mk.inj (Option.some.inj h)
      refine iff_of_true (hkeeps _) ?_
      intro hexists
      rw [hnone] at hexists
      exact nomatch hexists
    · next hexists =>
      rw [Bool.not_eq_false] at hexists
      unfold GetFits
      rw [← processHistoryGet_isSome hx currentTs, hexists]
      cases hget : processHistoryGet x.historyList currentTs request with
      | none =>
        rw [hget] at h
        obtain ⟨rfl, rfl⟩ := Prod.mk.inj (Option.some.inj h)
        exact iff_of_false (fun hkeeps => hkeeps.runs rfl rfl) (by simp)
      | some response =>
        rw [hget] at h
        obtain ⟨rfl, rfl⟩ := Prod.mk.inj (Option.some.inj h)
        exact iff_of_true (hkeeps _) fun _ => rfl

theorem capture_keeps {signalId : ℕ} {dp : GoString} (hx : EntriesSound x)
    (h : historyStep cfg x (.capture signalId dp) = some (x', output)) :
    KeepsHistory ⟨x, .capture signalId dp, x', output⟩ := by
  simp only [historyStep] at h
  split at h
  · exact nomatch h
  · next hguard =>
    rw [not_or, not_or, not_le] at hguard
    obtain ⟨historyList, hcapture, hsound⟩ := captureHistoryValue_sound hx dp hguard.2.2
    rw [hcapture] at h
    obtain ⟨rfl, rfl⟩ := Prod.mk.inj (Option.some.inj h)
    exact ⟨fun _ => hguard.2.1, hsound, nofun⟩

theorem loop_keeps {m : Moment} {r : Event} (hx : EntriesSound x)
    (h : historyStep cfg x (.server (.loop m r)) = some (x', output)) :
    KeepsHistory ⟨x, .server (.loop m r), x', output⟩ := by
  simp only [historyStep, recordingStep, loopStep, Option.map_eq_some_iff, Prod.mk.injEq] at h
  obtain ⟨r', -, rfl, -⟩ := h
  exact ⟨by simp [ofHistory], hx, by simp⟩

/-- A step keeps the history exactly where its event fits. -/
theorem keepsHistory_iff {y : HistoryMove} (hx : EntriesSound y.before)
    (hy : y.Of (historyStep cfg)) : KeepsHistory y ↔ EventFits y.before y.event := by
  obtain ⟨x, e, x', output⟩ := y
  cases e with
  | server e =>
    cases e with
    | loop m r => exact iff_of_true (loop_keeps hx hy) trivial
    | histCtrl histCtrlReq => exact histCtrl_exact hx hy
  | capture signalId dp => exact iff_of_true (capture_keeps hx hy) trivial
  | get currentTs request => exact get_exact hx hy

theorem entriesSound_initialRecording (leafPaths : Option (List GoString)) :
    EntriesSound (initialRecording leafPaths) := by
  intro signal hmem
  cases leafPaths with
  | none => exact nomatch hmem
  | some paths =>
    obtain ⟨path, -, rfl⟩ := List.mem_map.mp hmem
    exact ⟨le_rfl, le_rfl, rfl⟩

end Commands

/-- In a run of historyServer all steps keep the history exactly where their events fit. -/
theorem history_kept_iff {cfg : Config} {h : HistoryHistory} {x : Recording}
    (hrun : HistoryRun cfg h x) :
    Always (fun _ y => KeepsHistory y) h ↔ Always (fun _ y => EventFits y.before y.event) h := by
  refine hrun.always_iff (I := fun _ x => EntriesSound x) ?_ ?_ ?_
  · rintro x ⟨leafPaths, rfl⟩
    exact entriesSound_initialRecording leafPaths
  · intro _ y hx hy
    exact keepsHistory_iff hx hy
  · intro _ y _ _ hkeeps
    exact hkeeps.entries

/-- A run on the leaf paths of the other runs of historyServer. -/
theorem exists_historyRun (es : List HistoryEvent) (p : HistoryHistory → Prop)
    (hes : ∃ r ∈ replay (historyStep recordingConfig) []
      (initialRecording (some [str "Vehicle.A", str "Vehicle.B", str "Vehicle.C"])) es, p r.1) :
    ∃ h x, HistoryRun recordingConfig h x ∧ p h :=
  exists_run_of_replay es p ⟨_, rfl⟩ hes

def createRequest (path bufSize : String) : GoString :=
  str ("\x7b\"action\":\"create\",\"path\":\"" ++ path ++ "\",\"buf-size\":\"" ++ bufSize ++
    "\"\x7d")

/-- A recording that is created, started, read, stopped and deleted, with a late tick. -/
theorem history_kept_recording : ∃ h x, HistoryRun recordingConfig h x ∧ h.length = 7 ∧
    Always (fun _ y => KeepsHistory y) h := by
  obtain ⟨h, x, hrun, hlength, hfits⟩ := exists_historyRun
    [.server (.histCtrl (createRequest "Vehicle.C" "10")),
      .server (.histCtrl (histCtrlRequest "start" "Vehicle.C")),
      .capture 2 (historicSpeed "50" "2024-05-01T07:30:00Z"),
      .get 0 (str "\x7b\"path\":\"Vehicle.C\", \"period\":\"P1D\"\x7d"),
      .server (.histCtrl (histCtrlRequest "stop" "Vehicle.C")),
      .server (.histCtrl (histCtrlRequest "delete" "Vehicle.C")),
      .capture 2 (historicSpeed "60" "2024-05-01T07:45:00Z")]
    (fun h => h.length = 7 ∧ Always (fun _ y => EventFits y.before y.event) h) (by decide +kernel)
  exact ⟨h, x, hrun, hlength, (history_kept_iff hrun).mpr hfits⟩

/-- A buffer of a negative size. -/
theorem negative_size_panics : ¬ ∀ cfg h x, HistoryRun cfg h x →
    Always (fun _ y => KeepsHistory y) h := by
  intro hall
  obtain ⟨h, x, hrun, hpanics⟩ := exists_historyRun
    [.server (.histCtrl (createRequest "Vehicle.C" "-1"))]
    (fun h => ¬ Always (fun _ y => ofHistory y.event = true → y.after.status ≠ .panicked) h)
    (by decide +kernel)
  exact hpanics ((hall recordingConfig h x hrun).imp fun _ _ hkeeps => hkeeps.runs)

end VissServer.ServiceMgr
