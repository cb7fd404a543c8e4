import VissServer.Library.Tables
import VissServer.ServiceMgr.History
import VissServer.ServiceMgr.Killing

/-!
The ticker table as two kinds of owners share it: the interval subscriptions, which hold a
slot by their subscription id, and the recording signals, which hold one by their index. A
start and a stop are seen slot by slot.
-/
namespace VissServer.ServiceMgr

open Go Utils Runs

/-- What holds a slot of the ticker table. -/
inductive TickerOwner
  | interval (subscriptionId : ℤ)
  | signal (k : ℕ)
  deriving DecidableEq

/-- The number by which an owner holds its slot. -/
def TickerOwner.number : TickerOwner → ℤ
  | .interval subscriptionId => subscriptionId
  | .signal k => k

/-- The live owners: the subscriptions with a timebased filter, and the signals that are
recorded. -/
def owners (x : Recording) : List TickerOwner :=
  (x.mgr.subscriptionList.filter isTimebased).map (fun e => .interval e.subscriptionId) ++
    ((List.range x.historyList.length).filter fun k =>
      (x.historyList[k]?).any fun signal => signal.status ≠ 0).map .signal

/-- An index of the three arrays. -/
structure Slot where
  number : ℤ
  subscriptionTicker : Option Ticker
  historyTicker : Option HistoryTicker

def Recording.slot (x : Recording) (i : TickerIndex) : Slot :=
  ⟨x.mgr.tickerIndexList i, x.mgr.subscriptionTicker i, x.historyTicker i⟩

/-- The owner takes the slot, and a new ticker runs in its own array. -/
def Slot.start (c : Slot) (period : ℤ) : TickerOwner → Slot
  | .interval subscriptionId => { c with
      number := subscriptionId
      subscriptionTicker := some { period, subscriptionId } }
  | .signal k => { c with number := k, historyTicker := some { period, signalId := k } }

/-- The slot is freed, and the ticker in the owner's own array is stopped. -/
def Slot.stop (c : Slot) : TickerOwner → Slot
  | .interval _ => { c with
      number := 0
      subscriptionTicker := c.subscriptionTicker.map fun t => { t with stopped := true } }
  | .signal _ => { c with
      number := 0
      historyTicker := c.historyTicker.map fun t => { t with stopped := true } }

/-- A ticker that sends the owner's number runs in the owner's own array. -/
def Slot.Runs (c : Slot) : TickerOwner → Prop
  | .interval subscriptionId =>
      ∃ t, c.subscriptionTicker = some t ∧ t.subscriptionId = subscriptionId ∧ t.stopped = false
  | .signal k => ∃ t, c.historyTicker = some t ∧ t.signalId = k ∧ t.stopped = false

/-- Every live owner holds one slot of its own, and the tickers that run are those of the
live owners, each in its slot. -/
structure TickersOwned (x : Recording) : Prop where
  owned : Tables.Owned 0 (fun i => (x.slot i).number) TickerOwner.number (· ∈ owners x)
  runs : ∀ o i, (x.slot i).Runs o ↔ o ∈ owners x ∧ (x.slot i).number = o.number

/-- deactivateInterval or deactivateHistory, whichever stops the owner. -/
def Recording.deactivate (x : Recording) : TickerOwner → MayPanic Recording
  | .interval subscriptionId =>
      (deactivateInterval x.mgr subscriptionId).map fun mgr => { x with mgr }
  | .signal k => deactivateHistory x k

/-- The stop of a live owner finds a slot of its number, and does nothing but to free it and
to stop the owner's ticker there. -/
def StopsExact (x : Recording) : Prop :=
  ∀ o ∈ owners x, ∃ i x', (x.slot i).number = o.number ∧ x.deactivate o = some x' ∧
    x'.slot = Function.update x.slot i ((x.slot i).stop o)

/-- A slot of an owner that is no longer live is stopped. -/
def SlotStopped (before after : Recording) (i : TickerIndex) : Prop :=
  ∃ o ∈ owners before, o ∉ owners after ∧ (before.slot i).number = o.number ∧
    after.slot i = (before.slot i).stop o

/-- A free slot is taken by an owner that was not live before. -/
def SlotStarted (before after : Recording) (i : TickerIndex) : Prop :=
  ∃ o ∈ owners after, o ∉ owners before ∧ (before.slot i).number = 0 ∧
    ∃ period, after.slot i = (before.slot i).start period o

/-- Each slot is left as it is, or started or stopped for its own owner. -/
def ActsOnOwn (before after : Recording) : Prop :=
  ∀ i, after.slot i = before.slot i ∨ SlotStopped before after i ∨ SlotStarted before after i

/-- Owners only stop, each with its own slot. -/
structure StopsOwn (before after : Recording) : Prop where
  subset : ∀ o ∈ owners after, o ∈ owners before
  slots : ∀ i, after.slot i = before.slot i ∨ SlotStopped before after i

section

variable {x x' : Recording} {o o' : TickerOwner} {i : TickerIndex} {period id : ℤ} {k : ℕ}

@[simp] theorem interval_mem_owners : TickerOwner.interval id ∈ owners x ↔
    ∃ e ∈ x.mgr.subscriptionList, isTimebased e = true ∧ e.subscriptionId = id := by
  simp only [owners, List.mem_append, List.mem_map, List.mem_filter, TickerOwner.interval.injEq,
    reduceCtorEq, and_false, exists_false, or_false, and_assoc]

@[simp] theorem signal_mem_owners : TickerOwner.signal k ∈ owners x ↔
    ∃ signal, x.historyList[k]? = some signal ∧ signal.status ≠ 0 := by
  simp only [owners, List.mem_append, List.mem_map, List.mem_filter, reduceCtorEq, and_false,
    exists_false, false_or, TickerOwner.signal.injEq, exists_eq_right, List.mem_range,
    Option.any_eq_true, decide_eq_true_eq]
  constructor
  · intro h
    exact h.2
  · rintro ⟨signal, hget, hstatus⟩
    exact ⟨(List.getElem?_eq_some_iff.mp hget).1, signal, hget, hstatus⟩

@[simp] theorem Slot.start_number (c : Slot) (period : ℤ) (o : TickerOwner) :
    (c.start period o).number = o.number := by
  cases o <;> rfl

@[simp] theorem Slot.stop_number (c : Slot) (o : TickerOwner) : (c.stop o).number = 0 := by
  cases o <;> rfl

/-- A stop leaves only tickers of the other kind. -/
theorem Slot.runs_of_stop {c : Slot} (h : (c.stop o).Runs o') : c.Runs o' ∧ o' ≠ o := by
  cases o with
  | interval id =>
    cases o' with
    | interval id' =>
      obtain ⟨t, ht, -, hrunning⟩ := h
      obtain ⟨t', -, rfl⟩ := Option.map_eq_some_iff.mp ht
      simp at hrunning
    | signal k => exact ⟨h, nofun⟩
  | signal k =>
    cases o' with
    | interval id' => exact ⟨h, nofun⟩
    | signal k' =>
      obtain ⟨t, ht, -, hrunning⟩ := h
      obtain ⟨t', -, rfl⟩ := Option.map_eq_some_iff.mp ht
      simp at hrunning

theorem Slot.start_runs (c : Slot) (period : ℤ) (o : TickerOwner) : (c.start period o).Runs o := by
  cases o with
  | interval id => exact ⟨_, rfl, rfl, rfl⟩
  | signal k => exact ⟨_, rfl, rfl, rfl⟩

theorem Slot.runs_of_start {c : Slot} (h : (c.start period o).Runs o') : o' = o ∨ c.Runs o' := by
  cases o with
  | interval id =>
    cases o' with
    | interval id' =>
      obtain ⟨t, ht, hid, -⟩ := h
      obtain rfl := Option.some.inj ht
      exact .inl (congrArg _ hid.symm)
    | signal k => exact .inr h
  | signal k =>
    cases o' with
    | interval id' => exact .inr h
    | signal k' =>
      obtain ⟨t, ht, hid, -⟩ := h
      obtain rfl := Option.some.inj ht
      exact .inl (congrArg _ (Int.ofNat.inj hid).symm)

theorem slot_number_update (f : Slot) :
    (fun j => (Function.update x.slot i f j).number) =
      Function.update (fun j => (x.slot j).number) i f.number := by
  funext j
  by_cases hji : j = i
  · subst hji
    rw [Function.update_self, Function.update_self]
  · rw [Function.update_of_ne hji, Function.update_of_ne hji]

theorem TickersOwned.congr (hx : TickersOwned x) (hslots : x'.slot = x.slot)
    (howners : ∀ o, o ∈ owners x' ↔ o ∈ owners x) : TickersOwned x' := by
  refine ⟨?_, fun o i => ?_⟩
  · rw [hslots]
    exact hx.owned.congr howners
  · rw [hslots, howners o]
    exact hx.runs o i

/-- A new owner with a new number takes a free slot. -/
theorem TickersOwned.start (hx : TickersOwned x) (hfree : (x.slot i).number = 0)
    (hzero : o.number ≠ 0) (hnew : ∀ o' ∈ owners x, o'.number ≠ o.number)
    (howners : ∀ o', o' ∈ owners x' ↔ o' ∈ owners x ∨ o' = o)
    (hslots : x'.slot = Function.update x.slot i ((x.slot i).start period o)) :
    TickersOwned x' := by
  refine ⟨?_, fun o' j => ?_⟩
  · rw [hslots, slot_number_update, Slot.start_number]
    exact hx.owned.start hfree hzero hnew howners
  · rw [hslots, howners]
    by_cases hji : j = i
    · subst hji
      rw [Function.update_self, Slot.start_number]
      constructor
      · intro hruns
        rcases Slot.runs_of_start hruns with rfl | hold
        · exact ⟨.inr rfl, rfl⟩
        · obtain ⟨ho', hnumber⟩ := (hx.runs o' j).mp hold
          exact absurd (hnumber.symm.trans hfree) (hx.owned.nonfree o' ho')
      · rintro ⟨ho' | rfl, hnumber⟩
        · exact absurd hnumber.symm (hnew o' ho')
        · exact Slot.start_runs _ _ _
    · rw [Function.update_of_ne hji, hx.runs]
      refine ⟨fun h => ⟨.inl h.1, h.2⟩, ?_⟩
      rintro ⟨ho' | rfl, hnumber⟩
      · exact ⟨ho', hnumber⟩
      · obtain ⟨o'', ⟨ho'', hnumber''⟩, -⟩ := hx.owned.owner j (hnumber ▸ hzero)
        exact absurd (hnumber''.trans hnumber) (hnew o'' ho'')

/-- A live owner stops with its slot. -/
theorem TickersOwned.stop (hx : TickersOwned x) (ho : o ∈ owners x)
    (hi : (x.slot i).number = o.number)
    (howners : ∀ o', o' ∈ owners x' ↔ o' ∈ owners x ∧ o' ≠ o)
    (hslots : x'.slot = Function.update x.slot i ((x.slot i).stop o)) : TickersOwned x' := by
  have howned : Tables.Owned 0 (fun i => (x'.slot i).number) TickerOwner.number
      (· ∈ owners x') := by
    rw [hslots, slot_number_update, Slot.stop_number]
    exact hx.owned.stop ho hi howners
  refine ⟨howned, fun o' j => ?_⟩
  by_cases hji : j = i
  · subst hji
    refine iff_of_false ?_ ?_
    · rw [hslots, Function.update_self]
      intro hruns
      obtain ⟨hold, hne⟩ := Slot.runs_of_stop hruns
      obtain ⟨ho', hnumber⟩ := (hx.runs o' j).mp hold
      exact hne (hx.owned.eq_of_number ho ho' (hnumber.symm.trans hi))
    · rw [hslots, Function.update_self, Slot.stop_number]
      rintro ⟨ho', hnumber⟩
      exact howned.nonfree o' ho' hnumber.symm
  · rw [hslots, Function.update_of_ne hji, hx.runs, howners]
    refine ⟨fun h => ⟨⟨h.1, ?_⟩, h.2⟩, fun h => ⟨h.1.1, h.2⟩⟩
    rintro rfl
    exact hji (hx.owned.eq_of_key ho h.2 hi)

/-- The slot of a live owner is found, and its ticker runs there. -/
theorem TickersOwned.found (hx : TickersOwned x) (ho : o ∈ owners x) :
    ∃ i, tickerSlot x.mgr o.number = some i ∧ (x.slot i).number = o.number ∧
      (x.slot i).Runs o := by
  obtain ⟨j, hj, -⟩ := hx.owned.holds o ho
  cases hslot : tickerSlot x.mgr o.number with
  | none => exact absurd hj (tickerSlot_none.mp hslot j)
  | some i =>
    have hi : (x.slot i).number = o.number := tickerSlot_some hslot
    exact ⟨i, rfl, hi, (hx.runs o i).mpr ⟨ho, hi⟩⟩

theorem deactivateInterval_slot {s' : State} (h : deactivateInterval x.mgr id = some s') :
    ∃ i, tickerSlot x.mgr id = some i ∧
      Recording.slot { x with mgr := s' } =
        Function.update x.slot i ((x.slot i).stop (.interval id)) := by
  simp only [deactivateInterval, Option.bind_eq_bind, Option.bind_eq_some_iff,
    Option.some.injEq] at h
  obtain ⟨i, hi, ticker, hticker, rfl⟩ := h
  refine ⟨i, hi, funext fun j => ?_⟩
  by_cases hji : j = i
  · subst hji
    simp [Recording.slot, Slot.stop, hticker]
  · simp [Recording.slot, Function.update_of_ne hji]

theorem deactivateHistory_slot (h : deactivateHistory x k = some x') :
    x'.historyList = x.historyList ∧ x'.mgr.subscriptionList = x.mgr.subscriptionList ∧
      x'.mgr.subscriptionId = x.mgr.subscriptionId ∧ x'.status = x.status ∧
      ∃ i, tickerSlot x.mgr k = some i ∧
        x'.slot = Function.update x.slot i ((x.slot i).stop (.signal k)) := by
  simp only [deactivateHistory, Option.bind_eq_bind, Option.bind_eq_some_iff,
    Option.some.injEq] at h
  obtain ⟨i, hi, ticker, hticker, rfl⟩ := h
  refine ⟨rfl, rfl, rfl, rfl, i, hi, funext fun j => ?_⟩
  by_cases hji : j = i
  · subst hji
    simp [Recording.slot, Slot.stop, hticker]
  · simp [Recording.slot, Function.update_of_ne hji]

theorem TickersOwned.hasTicker (hx : TickersOwned x) (ho : .interval id ∈ owners x) :
    HasTicker x.mgr id := by
  obtain ⟨i, hi, -, t, ht, -⟩ := hx.found ho
  refine ⟨i, hi, ?_⟩
  intro hnone
  exact absurd (ht.symm.trans hnone) nofun

/-- The stop of a recording, also where the signal's element of the list has been changed. -/
theorem TickersOwned.deactivateHistory (hx : TickersOwned x) (ho : .signal k ∈ owners x)
    (historyList : List HistoryList) :
    ∃ x', ServiceMgr.deactivateHistory { x with historyList } k = some x' := by
  obtain ⟨i, hi, -, t, ht, -⟩ := hx.found ho
  have hslot : tickerSlot x.mgr k = some i := hi
  have hticker : x.historyTicker i = some t := ht
  simp only [ServiceMgr.deactivateHistory, hslot, Option.bind_eq_bind, Option.bind_some, hticker]
  exact ⟨_, rfl⟩

/-- In a table of owners every stop of a live owner is exact. -/
theorem TickersOwned.stopsExact (hx : TickersOwned x) : StopsExact x := by
  intro o ho
  cases o with
  | interval id =>
    have hsome := (deactivateInterval_isSome x.mgr id).mpr (hx.hasTicker ho)
    obtain ⟨s', hs'⟩ := Option.isSome_iff_exists.mp hsome
    obtain ⟨i, hi, hslot⟩ := deactivateInterval_slot hs'
    refine ⟨i, { x with mgr := s' }, tickerSlot_some hi, ?_, hslot⟩
    rw [Recording.deactivate, hs', Option.map_some]
  | signal k =>
    obtain ⟨x', hx'⟩ := hx.deactivateHistory ho x.historyList
    obtain ⟨-, -, -, -, i, hi, hslot⟩ := deactivateHistory_slot hx'
    exact ⟨i, x', tickerSlot_some hi, hx', hslot⟩

theorem SlotStopped.of_update (ho : o ∈ owners x) (ho' : o ∉ owners x')
    (hi : (x.slot i).number = o.number)
    (hslots : x'.slot = Function.update x.slot i ((x.slot i).stop o)) (j : TickerIndex) :
    x'.slot j = x.slot j ∨ SlotStopped x x' j := by
  by_cases hji : j = i
  · subst hji
    exact .inr ⟨o, ho, ho', hi, by rw [hslots, Function.update_self]⟩
  · exact .inl (by rw [hslots, Function.update_of_ne hji])

theorem SlotStarted.of_update (ho : o ∈ owners x') (ho' : o ∉ owners x)
    (hi : (x.slot i).number = 0)
    (hslots : x'.slot = Function.update x.slot i ((x.slot i).start period o))
    (j : TickerIndex) : x'.slot j = x.slot j ∨ SlotStarted x x' j := by
  by_cases hji : j = i
  · subst hji
    exact .inr ⟨o, ho, ho', hi, period, by rw [hslots, Function.update_self]⟩
  · exact .inl (by rw [hslots, Function.update_of_ne hji])

theorem ActsOnOwn.of_slots (hslots : x'.slot = x.slot) : ActsOnOwn x x' :=
  fun i => .inl (congrFun hslots i)

theorem StopsOwn.actsOnOwn (h : StopsOwn x x') : ActsOnOwn x x' :=
  fun i => (h.slots i).imp_right .inl

theorem StopsOwn.refl (x : Recording) : StopsOwn x x := ⟨fun _ ho => ho, fun _ => .inl rfl⟩

/-- Stops one after another; a slot that was freed is the slot of no live owner. -/
theorem StopsOwn.trans {x'' : Recording} (hx' : TickersOwned x') (h : StopsOwn x x')
    (h' : StopsOwn x' x'') : StopsOwn x x'' := by
  refine ⟨fun o ho => h.subset o (h'.subset o ho), fun i => ?_⟩
  rcases h'.slots i with heq' | ⟨o', ho', hdead', hi', hstop'⟩
  · rcases h.slots i with heq | ⟨o, ho, hdead, hi, hstop⟩
    · exact .inl (heq'.trans heq)
    · exact .inr ⟨o, ho, fun hlive => hdead (h'.subset o hlive), hi, heq'.trans hstop⟩
  · rcases h.slots i with heq | ⟨o, -, -, -, hstop⟩
    · rw [heq] at hi' hstop'
      exact .inr ⟨o', h.subset o' ho', hdead', hi', hstop'⟩
    · rw [hstop, Slot.stop_number] at hi'
      exact absurd hi'.symm (hx'.owned.nonfree o' ho')

end

end VissServer.ServiceMgr
