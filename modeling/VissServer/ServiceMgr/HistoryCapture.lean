import Mathlib.Data.List.Chain
import VissServer.ServiceMgr.HistorySafety

/-!
What a recording stores. captureHistoryValue leaves the last element of the buffer unused, and
a recording that is created again keeps its index over a buffer of empty strings.
-/
namespace VissServer.ServiceMgr

open Go Utils Runs

/-! ## The samples to be stored -/

/-- The datapoints with another time than the one taken before; last is the time of the latest
that is taken. -/
def changed (last : Option GoString) : List GoString → List GoString
  | [] => []
  | dp :: dps =>
      if last = some (getDPTs dp) then changed last dps
      else dp :: changed (some (getDPTs dp)) dps

/-- The buffer holds the first datapoints with another time than the one stored before, as many
as it is to have. -/
structure HistoryList.Fills (signal : HistoryList) (bufSize : ℕ) (dps : List GoString) :
    Prop where
  sound : signal.Sound
  held : signal.buffer.take signal.bufIndex.toNat = (changed none dps).take bufSize
  distinct : (signal.buffer.take signal.bufIndex.toNat).IsChain fun dp dp' =>
    getDPTs dp ≠ getDPTs dp'

section Changed

variable {dp : GoString} {dps dps' : List GoString} {last : Option GoString}

theorem changed_eq (h : last = some (getDPTs dp)) :
    changed last (dp :: dps) = changed last dps := by
  rw [changed, if_pos h]

theorem changed_ne (h : last ≠ some (getDPTs dp)) :
    changed last (dp :: dps) = dp :: changed (some (getDPTs dp)) dps := by
  rw [changed, if_neg h]

theorem head_changed (h : dp ∈ (changed last dps).head?) : last ≠ some (getDPTs dp) := by
  induction dps with
  | nil => cases h
  | cons dp' dps ih =>
    by_cases heq : last = some (getDPTs dp')
    · rw [changed_eq heq] at h
      exact ih h
    · rw [changed_ne heq] at h
      obtain rfl := Option.some.inj h
      exact heq

theorem changed_chain (last : Option GoString) (dps : List GoString) :
    (changed last dps).IsChain fun dp dp' => getDPTs dp ≠ getDPTs dp' := by
  induction dps generalizing last with
  | nil => exact .nil
  | cons dp dps ih =>
    by_cases heq : last = some (getDPTs dp)
    · rw [changed_eq heq]
      exact ih last
    · rw [changed_ne heq]
      refine (ih _).cons fun dp' hdp' hsame => ?_
      exact head_changed hdp' (congrArg some hsame)

end Changed

/-! ## One recording -/

/-- captureHistoryValue on the element of its signal. -/
def captureSignal (signal : HistoryList) (dp : GoString) : MayPanic HistoryList := do
  let latest ← latestTs signal
  if getDPTs dp ≠ latest ∧ signal.bufIndex < signal.bufSize - 1 then storeSample signal dp
  else some signal

theorem captureHistoryValue_eq {historyList : List HistoryList} {k : ℕ} {signal : HistoryList}
    (hget : historyList[k]? = some signal) (dp : GoString) :
    captureHistoryValue historyList k dp = (captureSignal signal dp).map (historyList.set k) := by
  simp only [captureHistoryValue, captureSignal, hget, Option.bind_eq_bind, Option.bind_some]
  cases latestTs signal with
  | none => rfl
  | some latest =>
    rw [Option.bind_some, Option.bind_some]
    split
    · exact (Option.map_eq_bind ..).symm
    · rfl

/-- The samples that are stored behind a capture. -/
def keep (bufSize : ℕ) (stored : List GoString) (dp : GoString) : List GoString :=
  if getDPTs dp ≠ (stored.getLast?.map getDPTs).getD [] ∧ stored.length + 1 < bufSize then
    stored ++ [dp]
  else stored

/-- The samples in front of a buffer that is empty behind them. -/
structure HistoryList.Holds (signal : HistoryList) (bufSize : ℕ) (stored : List GoString) :
    Prop where
  size : signal.bufSize = bufSize
  index : signal.bufIndex = stored.length
  fits : stored.length ≤ bufSize
  buffer : signal.buffer = stored ++ List.replicate (bufSize - stored.length) []

section Captures

variable {signal signal' : HistoryList} {bufSize : ℕ} {stored : List GoString} {dp : GoString}

theorem HistoryList.Holds.held (h : signal.Holds bufSize stored) :
    signal.buffer.take signal.bufIndex.toNat = stored := by
  rw [h.index, h.buffer, Int.toNat_natCast, List.take_left]

theorem HistoryList.Holds.sound (h : signal.Holds bufSize stored) : signal.Sound := by
  have hfits := h.fits
  refine ⟨?_, ?_, ?_⟩
  · rw [h.index]
    omega
  · rw [h.index, h.size]
    omega
  · rw [h.size, h.buffer, List.length_append, List.length_replicate]
    omega

theorem HistoryList.Holds.latestTs (h : signal.Holds bufSize stored) :
    ServiceMgr.latestTs signal = some ((stored.getLast?.map getDPTs).getD []) := by
  rw [ServiceMgr.latestTs, h.index, h.buffer]
  cases stored using List.reverseRecOn with
  | nil => rfl
  | append_singleton front last =>
    have hlength : (((front ++ [last]).length : ℕ) : ℤ) - 1 = (front.length : ℤ) := by
      rw [List.length_append, List.length_singleton]
      omega
    rw [if_pos (by simp), hlength, elementAt, if_pos (by omega), Int.toNat_natCast,
      List.append_assoc, List.getElem?_append_right (le_refl _), Nat.sub_self,
      List.getLast?_concat]
    rfl

theorem captureSignal_holds (h : signal.Holds bufSize stored) (dp : GoString) :
    ∃ signal', captureSignal signal dp = some signal' ∧ signal'.path = signal.path ∧
      signal'.Holds bufSize (keep bufSize stored dp) := by
  unfold captureSignal keep
  rw [h.latestTs, Option.bind_eq_bind, Option.bind_some, h.index, h.size]
  by_cases hstore : getDPTs dp ≠ (stored.getLast?.map getDPTs).getD [] ∧
      stored.length + 1 < bufSize
  · rw [if_pos ⟨hstore.1, by omega⟩, if_pos hstore]
    obtain ⟨rest, hrest⟩ : ∃ rest, bufSize - stored.length = rest + 1 :=
      ⟨bufSize - stored.length - 1, by omega⟩
    have hbuffer : signal.buffer = stored ++ [] :: List.replicate rest [] := by
      rw [h.buffer, hrest, List.replicate_succ]
    have helement : elementAt signal.buffer signal.bufIndex = some [] := by
      rw [elementAt, h.index, if_pos (by omega), Int.toNat_natCast, hbuffer,
        List.getElem?_append_right (le_refl _), Nat.sub_self]
      rfl
    rw [storeSample, helement]
    refine ⟨_, rfl, rfl, h.size, ?_, ?_, ?_⟩
    · dsimp only
      rw [h.index, List.length_append, List.length_singleton]
      omega
    · rw [List.length_append, List.length_singleton]
      omega
    · dsimp only
      rw [h.index, Int.toNat_natCast, hbuffer, List.set_append_right _ _ (le_refl _), Nat.sub_self,
        List.set_cons_zero, List.length_append, List.length_singleton, List.append_assoc,
        List.singleton_append]
      congr 3
      omega
  · rw [if_neg fun hroom => hstore ⟨hroom.1, by omega⟩, if_neg hstore]
    exact ⟨signal, rfl, rfl, h⟩

/-- The last element of the buffer is never reached. -/
theorem foldl_keep (bufSize : ℕ) (stored dps : List GoString) :
    dps.foldl (keep bufSize) stored = stored ++
      (changed (some ((stored.getLast?.map getDPTs).getD [])) dps).take
        (bufSize - 1 - stored.length) := by
  induction dps generalizing stored with
  | nil => simp [changed]
  | cons dp dps ih =>
    rw [List.foldl_cons, ih, keep]
    by_cases heq : some ((stored.getLast?.map getDPTs).getD []) = some (getDPTs dp)
    · rw [if_neg fun hstore => hstore.1 (Option.some.inj heq).symm, changed_eq heq]
    · rw [changed_ne heq]
      by_cases hroom : stored.length + 1 < bufSize
      · have hsucc : bufSize - 1 - stored.length =
            bufSize - 1 - (stored.length + 1) + 1 := by omega
        rw [if_pos ⟨fun hsame => heq (congrArg some hsame.symm), hroom⟩, List.getLast?_concat,
          List.length_append, List.length_singleton, hsucc, List.take_succ_cons, List.append_assoc]
        rfl
      · have hzero : bufSize - 1 - stored.length = 0 := by omega
        rw [if_neg fun hstore => hroom hstore.2, hzero, List.take_zero, List.take_zero]

/-- A recording whose index is outside its buffer stays as it is. -/
theorem captureSignal_outside (houtside : signal.bufIndex < 0 ∨ signal.bufSize < signal.bufIndex)
    (dp : GoString) : (captureSignal signal dp).getD signal = signal := by
  unfold captureSignal
  cases hlatest : ServiceMgr.latestTs signal with
  | none => rfl
  | some latest =>
    rw [Option.bind_eq_bind, Option.bind_some]
    split
    · next hstore =>
      rw [storeSample, elementAt, if_neg (by omega)]
      rfl
    · rfl

end Captures

/-! ## The condition -/

/-- A recording without samples stores all datapoints but the one for the last element. With one
sample left over, which create replaces by an empty string, only an empty first datapoint is as
good as stored. -/
def FillsWhen (bufIndex : ℤ) (bufSize : ℕ) (dps : List GoString) : Prop :=
  (bufIndex = 0 ∧ (∀ dp ∈ dps.head?, getDPTs dp ≠ []) ∧ (changed none dps).length < bufSize) ∨
  (bufIndex = 1 ∧ dps.head? = some [] ∧ (bufSize = 1 ∨ (changed none dps).length < bufSize))

theorem getDPTs_nil : getDPTs [] = [] := by decide

theorem take_pred_iff {α : Type*} {l : List α} {n : ℕ} :
    l.take (n - 1) = l.take n ↔ n = 0 ∨ l.length < n := by
  rw [List.take_eq_take_iff]
  omega

theorem not_fillsWhen_two {leftover : ℕ} (h : 2 ≤ leftover) (bufSize : ℕ)
    (dps : List GoString) : ¬ FillsWhen leftover bufSize dps := by
  rintro (⟨hzero, -⟩ | ⟨hone, -⟩)
  · omega
  · omega

/-- Behind a first datapoint without a time. -/
theorem stored_eq_iff_of_empty {leftover size : ℕ} {dp : GoString} (hle : leftover ≤ size + 1)
    (dps : List GoString) (hempty : getDPTs dp = []) :
    List.replicate leftover [] ++ (changed (some []) dps).take (size - leftover) =
      dp :: (changed (some []) dps).take size ↔ FillsWhen leftover (size + 1) (dp :: dps) := by
  have hchanged : (changed none (dp :: dps)).length = (changed (some []) dps).length + 1 := by
    rw [changed_ne (by simp), hempty, List.length_cons]
  rcases leftover with _ | _ | n
  · refine iff_of_false ?_ ?_
    · intro h
      have hlength := congrArg List.length h
      simp at hlength
    · rintro (⟨-, hfirst, -⟩ | ⟨hone, -⟩)
      · exact hfirst dp rfl hempty
      · omega
  · rw [FillsWhen, hchanged, List.replicate_one, List.singleton_append, List.cons.injEq,
      Nat.zero_add, take_pred_iff, List.head?_cons, Option.some.injEq]
    constructor
    · rintro ⟨hnil, hsize⟩
      exact Or.inr ⟨rfl, hnil.symm, by omega⟩
    · rintro (⟨hzero, -⟩ | ⟨-, hnil, hsize⟩)
      · omega
      · exact ⟨hnil.symm, by omega⟩
  · refine iff_of_false ?_ (not_fillsWhen_two (by omega) _ _)
    intro h
    rw [List.replicate_succ, List.replicate_succ, List.cons_append, List.cons_append] at h
    obtain ⟨-, htail⟩ := List.cons.inj h
    have hhead : [] ∈ (changed (some []) dps).head? := by
      have htake := congrArg List.head? htail
      rw [List.head?_cons, List.head?_take, if_neg (by omega)] at htake
      exact htake.symm
    exact head_changed hhead (congrArg some getDPTs_nil.symm)

/-- What is stored behind the empty strings left over, and what is to be stored. -/
theorem stored_eq_iff {leftover bufSize : ℕ} (hpos : 1 ≤ bufSize) (hle : leftover ≤ bufSize)
    (dps : List GoString) :
    List.replicate leftover [] ++ (changed (some []) dps).take (bufSize - 1 - leftover) =
      (changed none dps).take bufSize ↔ FillsWhen leftover bufSize dps := by
  obtain ⟨size, rfl⟩ : ∃ size, bufSize = size + 1 := ⟨bufSize - 1, by omega⟩
  cases dps with
  | nil =>
    have hzero : List.replicate leftover ([] : GoString) = [] ↔ leftover = 0 := by simp
    simp [changed, FillsWhen, hzero]
  | cons dp dps =>
    rw [Nat.add_sub_cancel]
    by_cases hempty : getDPTs dp = []
    · have hfirst := @changed_ne dp dps none (by simp)
      rw [hfirst, changed_eq (congrArg some hempty.symm), hempty, List.take_succ_cons]
      exact stored_eq_iff_of_empty hle dps hempty
    · have hboth : changed (some []) (dp :: dps) = changed none (dp :: dps) := by
        rw [changed_ne (fun h => hempty (Option.some.inj h).symm), changed_ne (by simp)]
      rw [hboth]
      cases leftover with
      | zero =>
        have htake := take_pred_iff (l := changed none (dp :: dps)) (n := size + 1)
        rw [Nat.add_sub_cancel] at htake
        rw [List.replicate_zero, List.nil_append, Nat.sub_zero, htake]
        simp [FillsWhen, hempty]
      | succ n =>
        refine iff_of_false ?_ ?_
        · intro h
          rw [changed_ne (by simp), List.replicate_succ, List.take_succ_cons] at h
          obtain rfl := (List.cons.inj h).1
          exact hempty getDPTs_nil
        · rintro (⟨hzero, -⟩ | ⟨-, hfirst, -⟩)
          · omega
          · obtain rfl := Option.some.inj hfirst
            exact hempty getDPTs_nil

/-! ## Runs -/

/-- A create or delete request for the path. -/
def Edits (path : GoString) : HistoryEvent → Prop
  | .server (.histCtrl histCtrlReq) =>
      textMember (requestMapOf histCtrlReq) (str "path") = path ∧
        (textMember (requestMapOf histCtrlReq) (str "action") = str "create" ∨
          textMember (requestMapOf histCtrlReq) (str "action") = str "delete")
  | _ => False

instance decidableEdits (path : GoString) : ∀ e, Decidable (Edits path e)
  | .server (.histCtrl _) => inferInstanceAs (Decidable (_ ∧ _))
  | .server (.loop _ _) => .isFalse id
  | .get _ _ => .isFalse id
  | .capture _ _ => .isFalse id

/-- The datapoint at a tick of the signal. -/
def capturedAt (k : ℕ) : HistoryEvent → List GoString
  | .capture signalId dp => if signalId = k then [dp] else []
  | _ => []

def captured (k : ℕ) : HistoryHistory → List GoString
  | [] => []
  | y :: h => captured k h ++ capturedAt k y.event

/-- The entries differ in frequency and status at most. -/
structure HistoryList.Agrees (signal signal' : HistoryList) : Prop where
  path : signal'.path = signal.path
  size : signal'.bufSize = signal.bufSize
  index : signal'.bufIndex = signal.bufIndex
  buffer : signal'.buffer = signal.buffer

section Entries

variable {x x' : Recording} {signal signal' : HistoryList} {k bufSize : ℕ}
  {histCtrlReq answer : GoString}

theorem HistoryList.Agrees.refl (signal : HistoryList) : signal.Agrees signal :=
  ⟨rfl, rfl, rfl, rfl⟩

theorem HistoryList.Holds.agrees {stored : List GoString} (h : signal.Holds bufSize stored)
    (hagrees : signal.Agrees signal') : signal'.Holds bufSize stored :=
  ⟨hagrees.size.trans h.size, hagrees.index.trans h.index, h.fits,
    hagrees.buffer.trans h.buffer⟩

theorem getHistoryListIndex_path {path : GoString} {historyList : List HistoryList}
    (h : getHistoryListIndex path historyList = some k) (hget : historyList[k]? = some signal) :
    signal.path = path := by
  obtain ⟨hlt, hpath, -⟩ := List.findIdx?_eq_some_iff_getElem.mp h
  rw [List.getElem?_eq_getElem hlt, Option.some.injEq] at hget
  rw [← hget]
  exact of_decide_eq_true hpath

theorem modifySignal_entry {k' : ℕ} {f : HistoryList → HistoryList}
    (hget : x.historyList[k]? = some signal) (hf : k' = k → signal.Agrees (f signal)) :
    ∃ signal', (x.modifySignal k' f).historyList[k]? = some signal' ∧ signal.Agrees signal' := by
  rw [Recording.modifySignal, List.getElem?_modify, hget]
  by_cases hk : k' = k
  · exact ⟨f signal, by simp [hk], hf hk⟩
  · exact ⟨signal, by simp [hk], .refl signal⟩

/-- A request that neither creates nor deletes the recording leaves its samples. -/
theorem processHistoryCtrl_entry (h : processHistoryCtrl x histCtrlReq = some (x', answer))
    (hget : x.historyList[k]? = some signal)
    (hedit : ¬ Edits signal.path (.server (.histCtrl histCtrlReq))) :
    ∃ signal', x'.historyList[k]? = some signal' ∧ signal.Agrees signal' := by
  have hsame : ∀ {status}, some (x, status) = some (x', answer) →
      ∃ signal', x'.historyList[k]? = some signal' ∧ signal.Agrees signal' := by
    intro status heq
    obtain ⟨rfl, -⟩ := Prod.mk.inj (Option.some.inj heq)
    exact ⟨signal, hget, .refl signal⟩
  unfold processHistoryCtrl at h
  split at h
  · exact hsame h
  dsimp only at h
  split at h
  · exact hsame h
  simp only [Option.bind_eq_bind, Option.bind_eq_some_iff] at h
  obtain ⟨path, hpath, action, haction, h⟩ := h
  have hother : ∀ k', getHistoryListIndex path x.historyList = some k' →
      action = str "create" ∨ action = str "delete" → k' ≠ k := by
    rintro k' hindex hedits rfl
    refine hedit ⟨?_, ?_⟩
    · rw [getHistoryListIndex_path hindex hget, textMember, hpath, Option.getD_some]
    · rw [textMember, haction, Option.getD_some]
      exact hedits
  split at h
  · next hcreate =>
    simp only [createCase, Option.bind_eq_bind, Option.bind_eq_some_iff] at h
    obtain ⟨size, -, h⟩ := h
    split at h
    · exact hsame h
    · simp only [Option.bind_eq_some_iff, Option.some.injEq, Prod.mk.injEq] at h
      obtain ⟨k', hindex, buffer, -, rfl, -⟩ := h
      exact modifySignal_entry hget fun hk => absurd hk (hother k' hindex (.inl hcreate))
  split at h
  · simp only [startCase, Option.bind_eq_bind, Option.bind_eq_some_iff] at h
    obtain ⟨frequency, -, h⟩ := h
    split at h
    · exact hsame h
    · next frequency =>
      simp only [Option.bind_eq_some_iff, Option.some.injEq, Prod.mk.injEq] at h
      obtain ⟨k', -, x₁, hactivate, rfl, -⟩ := h
      rcases activateHistory_cases (x.modifySignal k' _) k' frequency with ⟨hnone, -⟩ | hsome
      · rw [hactivate] at hnone
        cases hnone
      · obtain ⟨x₂, hx₂, hlist, -⟩ := hsome
        rw [hactivate, Option.some.injEq] at hx₂
        rw [hx₂, hlist]
        exact modifySignal_entry hget fun _ => ⟨rfl, rfl, rfl, rfl⟩
  split at h
  · simp only [stopCase, Option.bind_eq_bind, Option.bind_eq_some_iff, Option.some.injEq,
      Prod.mk.injEq] at h
    obtain ⟨k', -, x₁, hdeactivate, rfl, -⟩ := h
    rw [(deactivateHistory_slot hdeactivate).1]
    exact modifySignal_entry hget fun _ => ⟨rfl, rfl, rfl, rfl⟩
  split at h
  · next hdelete =>
    simp only [deleteCase, Option.bind_eq_bind, Option.bind_eq_some_iff] at h
    obtain ⟨k', hindex, signal', -, h⟩ := h
    split at h
    · exact hsame h
    · obtain ⟨rfl, -⟩ := Prod.mk.inj (Option.some.inj h)
      exact modifySignal_entry hget fun hk => absurd hk (hother k' hindex (.inr hdelete))
  · exact hsame h

/-- A create request that is answered keeps the index of the entry. -/
theorem create_entry {path : GoString}
    (h : processHistoryCtrl x histCtrlReq = some (x', str "200 OK"))
    (haction : textMember (requestMapOf histCtrlReq) (str "action") = str "create")
    (hpath : textMember (requestMapOf histCtrlReq) (str "path") = path)
    (hsize : numberMember (requestMapOf histCtrlReq) (str "buf-size") =
      some (some (bufSize : ℤ)))
    (hindex : getHistoryListIndex path x.historyList = some k)
    (hget : x.historyList[k]? = some signal) :
    x'.historyList[k]? =
      some { signal with bufSize, buffer := List.replicate bufSize [] } := by
  unfold processHistoryCtrl at h
  split at h
  · exact absurd (Prod.mk.inj (Option.some.inj h)).2 (by decide)
  dsimp only at h
  split at h
  · exact absurd (Prod.mk.inj (Option.some.inj h)).2 (by decide)
  simp only [Option.bind_eq_bind, Option.bind_eq_some_iff] at h
  obtain ⟨path', hpath', action, haction', h⟩ := h
  rw [textMember, hpath', Option.getD_some] at hpath
  rw [textMember, haction', Option.getD_some] at haction
  rw [if_pos haction, hpath, createCase, hsize, hindex] at h
  simp only [Option.bind_eq_bind, Option.bind_some, Option.bind_eq_some_iff, Option.some.injEq,
    Prod.mk.injEq] at h
  obtain ⟨buffer, hbuffer, rfl, -⟩ := h
  rw [makeStrings] at hbuffer
  split at hbuffer
  · cases hbuffer
  · rw [← Option.some.inj hbuffer, Int.toNat_natCast]
    simp [Recording.modifySignal, hget]

theorem captureHistoryValue_entry {signalId : ℕ} {dp : GoString}
    (hlt : signalId < x.historyList.length) (hget : x.historyList[k]? = some signal) :
    ((captureHistoryValue x.historyList signalId dp).getD x.historyList)[k]? =
      some (if signalId = k then (captureSignal signal dp).getD signal else signal) := by
  rw [captureHistoryValue_eq (List.getElem?_eq_getElem hlt)]
  by_cases hk : signalId = k
  · subst hk
    rw [List.getElem?_eq_getElem hlt, Option.some.injEq] at hget
    rw [if_pos rfl, hget]
    cases captureSignal signal dp with
    | none =>
      rw [← hget]
      exact List.getElem?_eq_getElem hlt
    | some signal' => exact List.getElem?_set_self hlt
  · rw [if_neg hk]
    cases captureSignal x.historyList[signalId] dp with
    | none => exact hget
    | some signal' => exact (List.getElem?_set_ne hk).trans hget

variable {cfg : Config}

/-- What a step does to the entry of a recording that it neither creates nor deletes. -/
theorem historyStep_entry {y : HistoryMove} (hy : y.Of (historyStep cfg))
    (hget : y.before.historyList[k]? = some signal) (hedit : ¬ Edits signal.path y.event) :
    ∃ signal', y.after.historyList[k]? = some signal' ∧
      ((capturedAt k y.event).foldl
        (fun signal dp => (captureSignal signal dp).getD signal) signal).Agrees signal' := by
  obtain ⟨x, e, x', output⟩ := y
  unfold Move.Of at hy
  cases e with
  | server e =>
    cases e with
    | loop m r =>
      simp only [historyStep, recordingStep, loopStep, Option.map_eq_some_iff,
        Prod.mk.injEq] at hy
      obtain ⟨r', -, rfl, -⟩ := hy
      exact ⟨signal, hget, .refl signal⟩
    | histCtrl histCtrlReq =>
      simp only [historyStep, recordingStep] at hy
      split at hy
      · cases hy
      · rw [Option.some.injEq, histCtrlStep] at hy
        cases hctrl : processHistoryCtrl x histCtrlReq with
        | none =>
          rw [hctrl] at hy
          obtain ⟨rfl, -⟩ := Prod.mk.inj hy
          exact ⟨signal, hget, .refl signal⟩
        | some r =>
          obtain ⟨x₁, answer⟩ := r
          rw [hctrl] at hy
          obtain ⟨rfl, -⟩ := Prod.mk.inj hy
          exact processHistoryCtrl_entry hctrl hget hedit
  | capture signalId dp =>
    simp only [historyStep] at hy
    split at hy
    · cases hy
    · next hguard =>
      rw [not_or, not_or, not_le] at hguard
      have hentry := @captureHistoryValue_entry x signal k signalId dp hguard.2.2 hget
      have hafter : x'.historyList =
          (captureHistoryValue x.historyList signalId dp).getD x.historyList := by
        cases hcapture : captureHistoryValue x.historyList signalId dp with
        | none =>
          rw [hcapture] at hy
          obtain ⟨rfl, -⟩ := Prod.mk.inj (Option.some.inj hy)
          rfl
        | some historyList =>
          rw [hcapture] at hy
          obtain ⟨rfl, -⟩ := Prod.mk.inj (Option.some.inj hy)
          rfl
      refine ⟨_, (congrArg (·[k]?) hafter).trans hentry, ?_⟩
      dsimp only [capturedAt]
      split
      · exact .refl _
      · exact .refl _
  | get currentTs request =>
    have hsame : x'.historyList = x.historyList := by
      simp only [historyStep] at hy
      split at hy
      · cases hy
      split at hy
      · obtain ⟨rfl, -⟩ := Prod.mk.inj (Option.some.inj hy)
        rfl
      · cases hresponse : processHistoryGet x.historyList currentTs request with
        | none =>
          rw [hresponse] at hy
          obtain ⟨rfl, -⟩ := Prod.mk.inj (Option.some.inj hy)
          rfl
        | some response =>
          rw [hresponse] at hy
          obtain ⟨rfl, -⟩ := Prod.mk.inj (Option.some.inj hy)
          rfl
    exact ⟨signal, (congrArg (·[k]?) hsame).trans hget, .refl signal⟩

/-- What a recording is like behind the datapoints of its ticks, in a run without another create
or delete. -/
theorem run_entry {P : HistoryList → List GoString → Prop} {created : Recording}
    {h : HistoryHistory} (hrun : Run (historyStep cfg) (fun s => s = created) h x')
    (hget : created.historyList[k]? = some signal)
    (hedits : Always (fun _ y => ¬ Edits signal.path y.event) h) (hstart : P signal [])
    (hpath : ∀ signal' dps, P signal' dps → signal'.path = signal.path)
    (hagrees : ∀ signal₁ signal₂ dps, P signal₁ dps → signal₁.Agrees signal₂ → P signal₂ dps)
    (hcapture : ∀ signal' dps dp, P signal' dps →
      P ((captureSignal signal' dp).getD signal') (dps ++ [dp])) :
    ∃ signal', x'.historyList[k]? = some signal' ∧ P signal' (captured k h) := by
  refine hrun.invariant_of (I := fun h x => ∃ signal', x.historyList[k]? = some signal' ∧
    P signal' (captured k h)) hedits ?_ ?_
  · rintro _ rfl
    exact ⟨signal, hget, hstart⟩
  · rintro h y ⟨signal', hget', hP⟩ hy hedit
    rw [← hpath _ _ hP] at hedit
    obtain ⟨signal'', hget'', hstep⟩ := historyStep_entry hy hget' hedit
    refine ⟨signal'', hget'', hagrees _ _ _ ?_ hstep⟩
    rw [captured]
    generalize hdps : capturedAt k y.event = dps
    have hshort : dps = [] ∨ ∃ dp, dps = [dp] := by
      subst hdps
      cases y.event with
      | capture signalId dp =>
        rw [capturedAt]
        split
        · exact .inr ⟨dp, rfl⟩
        · exact .inl rfl
      | server _ => exact .inl rfl
      | get _ _ => exact .inl rfl
    rcases hshort with rfl | ⟨dp, rfl⟩
    · rw [List.append_nil]
      exact hP
    · exact hcapture _ _ dp hP

end Entries

/-! ## The buffer of a run -/

section Filling

variable {signal signal' : HistoryList} {bufSize : ℕ} {stored dps dps' : List GoString}

theorem HistoryList.Holds.fills_iff (h : signal.Holds bufSize stored) :
    signal.Fills bufSize dps ↔ stored = (changed none dps).take bufSize := by
  constructor
  · intro hfills
    rw [← hfills.held, h.held]
  · intro heq
    refine ⟨h.sound, h.held.trans heq, ?_⟩
    rw [h.held, heq]
    exact (changed_chain none dps).take bufSize

/-- The index that is left over from an earlier recording counts samples of the new one, which
are empty. -/
theorem created_holds {leftover : ℕ} (hindex : signal.bufIndex = leftover)
    (hle : leftover ≤ bufSize) :
    ({ signal with bufSize, buffer := List.replicate bufSize [] } : HistoryList).Holds bufSize
      (List.replicate leftover []) := by
  refine ⟨rfl, ?_, ?_, ?_⟩
  · rw [List.length_replicate]
    exact hindex
  · rw [List.length_replicate]
    exact hle
  · rw [List.length_replicate, List.replicate_append_replicate, Nat.add_sub_cancel' hle]

theorem getLast?_leftover (leftover : ℕ) :
    ((List.replicate leftover ([] : GoString)).getLast?.map getDPTs).getD [] = [] := by
  cases leftover with
  | zero => rfl
  | succ n =>
    rw [List.replicate_succ', List.getLast?_concat]
    exact getDPTs_nil

theorem foldl_keep_leftover (leftover bufSize : ℕ) (dps : List GoString) :
    dps.foldl (keep bufSize) (List.replicate leftover []) =
      List.replicate leftover [] ++
        (changed (some []) dps).take (bufSize - 1 - leftover) := by
  rw [foldl_keep, getLast?_leftover, List.length_replicate]

end Filling

/-- A recording that is created fills its buffer exactly where the last element is not needed and
no index is left over; one left over counts an empty sample. -/
theorem history_capture_iff {cfg : Config} {x created x' : Recording}
    {histCtrlReq path : GoString} {bufSize k : ℕ} {signal : HistoryList} {h : HistoryHistory}
    (hcreate : processHistoryCtrl x histCtrlReq = some (created, str "200 OK"))
    (haction : textMember (requestMapOf histCtrlReq) (str "action") = str "create")
    (hpath : textMember (requestMapOf histCtrlReq) (str "path") = path)
    (hsize : numberMember (requestMapOf histCtrlReq) (str "buf-size") =
      some (some (bufSize : ℤ)))
    (hpos : 1 ≤ bufSize) (hindex : getHistoryListIndex path x.historyList = some k)
    (hsignal : x.historyList[k]? = some signal)
    (hrun : Run (historyStep cfg) (fun s => s = created) h x')
    (hedits : Always (fun _ y => ¬ Edits path y.event) h) :
    (∃ signal', x'.historyList[k]? = some signal' ∧ signal'.Fills bufSize (captured k h)) ↔
      FillsWhen signal.bufIndex bufSize (captured k h) := by
  have hentry := create_entry hcreate haction hpath hsize hindex hsignal
  obtain rfl := getHistoryListIndex_path hindex hsignal
  by_cases hwithin : 0 ≤ signal.bufIndex ∧ signal.bufIndex ≤ bufSize
  · obtain ⟨leftover, hleftover⟩ := Int.eq_ofNat_of_zero_le hwithin.1
    have hle : leftover ≤ bufSize := by omega
    let P := fun (signal' : HistoryList) (dps : List GoString) => signal'.path = signal.path ∧
      signal'.Holds bufSize (dps.foldl (keep bufSize) (List.replicate leftover []))
    have hcapture : ∀ signal' dps dp, P signal' dps →
        P ((captureSignal signal' dp).getD signal') (dps ++ [dp]) := by
      rintro signal₁ dps dp ⟨hpath₁, hholds⟩
      obtain ⟨signal₂, hcapture, hpath₂, hholds₂⟩ := captureSignal_holds hholds dp
      rw [hcapture]
      refine ⟨hpath₂.trans hpath₁, ?_⟩
      rw [List.foldl_concat]
      exact hholds₂
    obtain ⟨signal', hget, -, hholds⟩ := run_entry (P := P) hrun hentry hedits
      ⟨rfl, created_holds hleftover hle⟩ (fun _ _ hP => hP.1)
      (fun _ _ _ hP hagrees => ⟨hagrees.path.trans hP.1, hP.2.agrees hagrees⟩) hcapture
    rw [hget, hleftover, ← stored_eq_iff hpos hle, ← foldl_keep_leftover, ← hholds.fills_iff]
    simp
  · let P := fun (signal' : HistoryList) (_ : List GoString) => signal'.path = signal.path ∧
      signal'.bufSize = bufSize ∧ signal'.bufIndex = signal.bufIndex
    have hcapture : ∀ signal' dps dp, P signal' dps →
        P ((captureSignal signal' dp).getD signal') (dps ++ [dp]) := by
      rintro signal₁ dps dp ⟨hpath₁, hsize₁, hindex₁⟩
      rw [captureSignal_outside (by omega)]
      exact ⟨hpath₁, hsize₁, hindex₁⟩
    obtain ⟨signal', hget, -, hbufSize, hbufIndex⟩ := run_entry (P := P) hrun hentry hedits
      ⟨rfl, rfl, rfl⟩ (fun _ _ hP => hP.1)
      (fun _ _ _ hP hagrees => ⟨hagrees.path.trans hP.1, hagrees.size.trans hP.2.1,
        hagrees.index.trans hP.2.2⟩) hcapture
    refine iff_of_false ?_ ?_
    · rintro ⟨signal'', hget'', hfills⟩
      obtain rfl := Option.some.inj (hget.symm.trans hget'')
      have hnonneg := hfills.sound.nonneg
      have hle := hfills.sound.within
      omega
    · rintro (⟨hzero, -⟩ | ⟨hone, -⟩)
      · omega
      · omega

def threePaths : Recording :=
  initialRecording (some [str "Vehicle.A", str "Vehicle.B", str "Vehicle.C"])

/-- A run behind a create request for the last of three paths. -/
theorem exists_createdRun (bufSize : String) (es : List HistoryEvent) (p : HistoryHistory → Prop)
    (hes : ∃ r ∈ processHistoryCtrl threePaths (createRequest "Vehicle.C" bufSize),
      r.2 = str "200 OK" ∧ ∃ r' ∈ replay (historyStep recordingConfig) [] r.1 es, p r'.1) :
    ∃ created h x, processHistoryCtrl threePaths (createRequest "Vehicle.C" bufSize) =
      some (created, str "200 OK") ∧
        Run (historyStep recordingConfig) (fun s => s = created) h x ∧ p h := by
  obtain ⟨⟨created, answer⟩, hcreate, rfl, hreplay⟩ := hes
  obtain ⟨h, x, hrun, hp⟩ : ∃ h x,
      Run (historyStep recordingConfig) (fun s => s = created) h x ∧ p h :=
    exists_run_of_replay es p rfl hreplay
  exact ⟨created, h, x, hcreate, hrun, hp⟩

/-- Two samples in a buffer of three, one of which is captured twice. -/
theorem history_capture_two : ∃ created h x signal,
    processHistoryCtrl threePaths (createRequest "Vehicle.C" "3") =
      some (created, str "200 OK") ∧
    Run (historyStep recordingConfig) (fun s => s = created) h x ∧ h.length = 4 ∧
    x.historyList[2]? = some signal ∧ signal.Fills 3 (captured 2 h) := by
  obtain ⟨created, h, x, hcreate, hrun, hlength, hedits, hcaptured⟩ := exists_createdRun "3"
    [.server (.histCtrl (histCtrlRequest "start" "Vehicle.C")),
      .capture 2 (historicSpeed "50" "2024-05-01T07:30:00Z"),
      .capture 2 (historicSpeed "55" "2024-05-01T07:30:00Z"),
      .capture 2 (historicSpeed "60" "2024-05-01T07:45:00Z")]
    (fun h => h.length = 4 ∧ Always (fun _ y => ¬ Edits (str "Vehicle.C") y.event) h ∧
      FillsWhen 0 3 (captured 2 h)) (by unfold FillsWhen; decide +kernel)
  obtain ⟨signal, hsignal, hfills⟩ := (history_capture_iff (k := 2) hcreate (by decide +kernel)
    (by decide +kernel) (by decide +kernel) (by decide) (by decide +kernel) rfl hrun hedits).mpr
      hcaptured
  exact ⟨created, h, x, signal, hcreate, hrun, hlength, hsignal, hfills⟩

/-- The only element of a buffer of one is never used. -/
theorem history_capture_unused : ¬ ∀ cfg x created x' histCtrlReq path bufSize k signal h,
    processHistoryCtrl x histCtrlReq = some (created, str "200 OK") →
    textMember (requestMapOf histCtrlReq) (str "action") = str "create" →
    textMember (requestMapOf histCtrlReq) (str "path") = path →
    numberMember (requestMapOf histCtrlReq) (str "buf-size") = some (some ((bufSize : ℕ) : ℤ)) →
    1 ≤ bufSize → getHistoryListIndex path x.historyList = some k →
    x.historyList[k]? = some signal →
    Run (historyStep cfg) (fun s => s = created) h x' →
    Always (fun _ y => ¬ Edits path y.event) h →
    ∃ signal', x'.historyList[k]? = some signal' ∧ signal'.Fills bufSize (captured k h) := by
  intro hall
  obtain ⟨created, h, x, hcreate, hrun, hedits, hcaptured, hunused⟩ := exists_createdRun "1"
    [.server (.histCtrl (histCtrlRequest "start" "Vehicle.C")),
      .capture 2 (historicSpeed "50" "2024-05-01T07:30:00Z")]
    (fun h => Always (fun _ y => ¬ Edits (str "Vehicle.C") y.event) h ∧
      captured 2 h = [historicSpeed "50" "2024-05-01T07:30:00Z"] ∧
      ∃ y ∈ h.head?, ∀ signal ∈ y.after.historyList[2]?, signal.samples = [])
    (by decide +kernel)
  obtain ⟨signal, hsignal, hfills⟩ := hall recordingConfig threePaths created x
    (createRequest "Vehicle.C" "1") (str "Vehicle.C") 1 2 _ h hcreate (by decide +kernel)
    (by decide +kernel) (by decide +kernel) (by decide) (by decide +kernel) rfl hrun hedits
  obtain ⟨y, hy, hempty⟩ := hunused
  have hlast : x = y.after := by
    cases hrun with
    | start => cases hy
    | next => rw [← Option.some.inj hy]
  have hheld := hfills.held
  rw [hcaptured, changed_ne (by simp), List.take_succ_cons] at hheld
  rw [hlast] at hsignal
  have hnil := hempty signal hsignal
  rw [HistoryList.samples, hheld] at hnil
  cases hnil

end VissServer.ServiceMgr
