import Mathlib.Data.Fin.Tuple.Basic
import VissServer.Utils.Messages

/-!
The data of the service manager and the operations on its subscription list and its
tickers (serviceMgr.go, curvelog.go). History recording, which shares the ticker table,
is added in History.
-/
namespace VissServer.ServiceMgr

open Go Utils

structure SubscriptionState where
  subscriptionId : ℤ
  subscriptionThreads : ℤ := 0
  routerId : GoString
  path : List GoString
  filterList : List FilterObject
  latestDataPoint : GoString
  gatingId : GoString := []
  deriving DecidableEq

def MAXTICKERS : ℕ := 255

abbrev TickerIndex := Fin MAXTICKERS

/-- A time.Ticker with its period in nanoseconds, and the subscription id that its
goroutine sends. -/
structure Ticker where
  period : ℤ
  subscriptionId : ℤ
  stopped : Bool := false
  deriving DecidableEq

/-- The arguments of a curveLoggingServer that was started. -/
structure CurveLogging where
  subscriptionId : ℤ
  opValue : GoString
  paths : List GoString
  deriving DecidableEq

def MAXCLSESSIONS : ℤ := 100

structure State where
  subscriptionList : List SubscriptionState
  /-- The id of the next subscription. -/
  subscriptionId : ℤ
  tickerIndexList : TickerIndex → ℤ
  subscriptionTicker : TickerIndex → Option Ticker
  closeClSubId : ℤ
  curveLoggingServers : List CurveLogging
  numOfClSessions : ℤ
  errorResponseMap : GoMap Json
  dummyValue : ℤ

def initialErrorResponseMap : GoMap Json := GoMap.ofMembers
  [(str "RouterId", .str (str "0?0")), (str "action", .str (str "unknown")),
    (str "requestId", .str (str "XX")),
    (str "error", .str (str
      "\x7b\"number\":AA, \"reason\": \"BB\", \"message\": \"CC\"\x7d")),
    (str "ts", .str (str "yy"))]

/-- The state in which ServiceMgrInit enters its loop. -/
def initialState : State where
  subscriptionList := []
  subscriptionId := 1
  tickerIndexList _ := 0
  subscriptionTicker _ := none
  closeClSubId := -1
  curveLoggingServers := []
  numOfClSessions := 0
  errorResponseMap := initialErrorResponseMap
  dummyValue := 0

/-- The first slot of the ticker table that holds the id; 0 is a free slot. -/
def tickerSlot (s : State) (subscriptionId : ℤ) : Option TickerIndex :=
  Fin.find? fun i => s.tickerIndexList i = subscriptionId

theorem tickerSlot_some {s : State} {id : ℤ} {i : TickerIndex} (h : tickerSlot s id = some i) :
    s.tickerIndexList i = id := by
  simpa using (Fin.find?_eq_some_iff.mp h).1

theorem tickerSlot_none {s : State} {id : ℤ} :
    tickerSlot s id = none ↔ ∀ i, s.tickerIndexList i ≠ id := by
  simp [tickerSlot]

theorem tickerSlot_congr {s s' : State} {id : ℤ}
    (h : ∀ i, s'.tickerIndexList i = id ↔ s.tickerIndexList i = id) :
    tickerSlot s' id = tickerSlot s id := by
  unfold tickerSlot
  simp only [h]

@[simp] theorem tickerSlot_subscriptionList (s : State) (l : List SubscriptionState) (id : ℤ) :
    tickerSlot { s with subscriptionList := l } id = tickerSlot s id := rfl

-- The simplifier would unroll the scan over all slots.
attribute [irreducible] tickerSlot

/-- A table without a free slot is only logged; NewTicker panics where the period is not
positive, as it is after an overflow. -/
def activateInterval (s : State) (subscriptionId interval : ℤ) : MayPanic State :=
  match tickerSlot s 0 with
  | none => some s
  | some i =>
      let period := wrapInt64 (interval * 1000000)
      if period ≤ 0 then none
      else some { s with
        tickerIndexList := Function.update s.tickerIndexList i subscriptionId
        subscriptionTicker :=
          Function.update s.subscriptionTicker i (some { period, subscriptionId }) }

/-- An id without a slot is the index -1, and a slot may have no ticker to stop. -/
def deactivateInterval (s : State) (subscriptionId : ℤ) : MayPanic State := do
  let i ← tickerSlot s subscriptionId
  let ticker ← s.subscriptionTicker i
  some { s with
    tickerIndexList := Function.update s.tickerIndexList i 0
    subscriptionTicker :=
      Function.update s.subscriptionTicker i (some { ticker with stopped := true }) }

/-- The first entry with the id; none is the index -1. -/
def getSubcriptionStateIndex (subscriptionId : ℤ) (subscriptionList : List SubscriptionState) :
    Option ℕ :=
  subscriptionList.findIdx? fun e => e.subscriptionId = subscriptionId

def getOpType (filterList : List FilterObject) (opType : GoString) : Bool :=
  filterList.any fun f => f.type = opType

/-- The last element takes the place of the removed one. -/
def removeFromsubscriptionList (subscriptionList : List SubscriptionState) (index : ℕ) :
    List SubscriptionState :=
  match subscriptionList.getLast? with
  | none => []
  | some last => (subscriptionList.set index last).dropLast

/-- The ticker of an entry is stopped, or its capture sessions are told to close. -/
def stopTrigger (s : State) (e : SubscriptionState) : MayPanic State :=
  if getOpType e.filterList (str "timebased") then deactivateInterval s e.subscriptionId
  else if getOpType e.filterList (str "curvelog") then
    some { s with closeClSubId := e.subscriptionId }
  else some s

/-- The part of deactivateSubscription behind the lookup of the entry; a curve logging
entry is left in the list. -/
def deactivateEntry (s : State) (index : ℕ) (e : SubscriptionState) : MayPanic State :=
  (stopTrigger s e).map fun s =>
    if getOpType e.filterList (str "curvelog") then s
    else { s with subscriptionList := removeFromsubscriptionList s.subscriptionList index }

/-- deactivateSubscription by the number of a subscription; an id that is not in the list
is the inner none. -/
def deactivateSubscriptionId (s : State) (id : ℤ) : MayPanic (Option State) :=
  match getSubcriptionStateIndex id s.subscriptionList with
  | none => some none
  | some index => do
      let e ← s.subscriptionList[index]?
      some (some (← deactivateEntry s index e))

/-- The entry that is found by its id, with its place in the list. -/
theorem deactivateSubscriptionId_cases (s : State) (id : ℤ) :
    (s.subscriptionList.find? (fun e => e.subscriptionId = id) = none ∧
      deactivateSubscriptionId s id = some none) ∨
    ∃ index e, s.subscriptionList[index]? = some e ∧ e.subscriptionId = id ∧
      s.subscriptionList.find? (fun e => e.subscriptionId = id) = some e ∧
      deactivateSubscriptionId s id = (deactivateEntry s index e).map some := by
  have hfind : s.subscriptionList.find? (fun e => e.subscriptionId = id) =
      (getSubcriptionStateIndex id s.subscriptionList).bind (s.subscriptionList[·]?) :=
    List.find?_eq_bind_findIdx?_getElem?
  cases hindex : getSubcriptionStateIndex id s.subscriptionList with
  | none =>
    rw [hindex, Option.bind_none] at hfind
    exact .inl ⟨hfind, by rw [deactivateSubscriptionId, hindex]⟩
  | some index =>
    obtain ⟨hlt, hid, -⟩ := List.findIdx?_eq_some_iff_getElem.mp hindex
    have hget : s.subscriptionList[index]? = some s.subscriptionList[index] :=
      List.getElem?_eq_getElem hlt
    rw [hindex, Option.bind_some, hget] at hfind
    refine .inr ⟨index, _, hget, by simpa using hid, hfind, ?_⟩
    rw [deactivateSubscriptionId, hindex]
    simp only [hget, Option.bind_eq_bind, Option.bind_some]
    cases deactivateEntry s index s.subscriptionList[index] <;> rfl

def deactivateSubscription (s : State) (subscriptionId : GoString) : MayPanic (Option State) :=
  deactivateSubscriptionId s (atoiIgnoringError subscriptionId)

/-- The router id and the subscription id of the first entry with the gating id. -/
def getSubscriptionData (subscriptionList : List SubscriptionState) (gatingId : GoString) :
    GoString × GoString :=
  match subscriptionList.find? fun e => e.gatingId = gatingId with
  | some e => (e.routerId, itoa e.subscriptionId)
  | none => ([], [])

/-- The first entry of a router id is deactivated; the flag tells whether there is one.
The id of the entry is not changed by its way through Itoa and Atoi. -/
def scanAndRemoveListItem (s : State) (routerId : GoString) : MayPanic (Bool × State) :=
  match s.subscriptionList.find? fun e => e.routerId = routerId with
  | none => some (false, s)
  | some e => do
      let r ← deactivateSubscriptionId s e.subscriptionId
      some (true, r.getD s)

/-- The decoded value of one string field of a struct. -/
def decodeField (name opValue : GoString) : Option GoString :=
  (parseText opValue).bind (decodeStruct (fun field key v =>
    if fieldNamed name key then Go.decodeString field v else some field) [])

/-- The period of a timebased filter, -1 where it has none. -/
def getIntervalPeriod (opValue : GoString) : ℤ :=
  match decodeField (str "period") opValue with
  | none => -1
  | some period => (atoi period).getD (-1)

/-- Only the first filter of one of these types has an effect. -/
def activateIfIntervalOrCL (s : State) (filterList : List FilterObject) (subscriptionId : ℤ)
    (paths : List GoString) : MayPanic State :=
  match filterList with
  | [] => some s
  | f :: filterList =>
      if f.type = str "timebased" then
        let interval := getIntervalPeriod f.parameter
        if interval > 0 then activateInterval s subscriptionId interval else some s
      else if f.type = str "curvelog" then
        some { s with curveLoggingServers :=
          s.curveLoggingServers ++ [{ subscriptionId, opValue := f.parameter, paths }] }
      else activateIfIntervalOrCL s filterList subscriptionId paths

end VissServer.ServiceMgr
