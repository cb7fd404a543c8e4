import Mathlib.Data.Fin.Tuple.Basic
import Mathlib.Logic.Function.Basic
import VissServer.Utils.Tokens

/-!
The state of the access token server and the operations on its pending list and
active list (atServer.go). A list is a function on its LISTSIZE slots; a slot with
GatingId -1 is free, and its other fields keep what was last written to them.
Times are nanoseconds since 1970.
-/
namespace VissServer.AtServer

open Go Utils

structure AtGenPayload where
  token : GoString := []
  purpose : GoString := []
  pop : GoString := []
  agt : ExtendedJwt := {}
  popTk : PopToken := {}
  deriving DecidableEq

structure PendingListElem where
  gatingId : ℤ
  consent : GoString
  atGenData : AtGenPayload
  agtExpiryTime : GoString
  deriving DecidableEq

structure ActiveListElem where
  gatingId : ℤ
  atoken : GoString
  atokenHandle : GoString
  atExpiryTime : GoString
  deriving DecidableEq

def LISTSIZE : ℕ := 100

instance : NeZero LISTSIZE := ⟨Nat.succ_ne_zero 99⟩

abbrev Slot := Fin LISTSIZE

structure State where
  /-- The variable GatingId, which initGatingId sets. -/
  gatingId : ℕ
  pendingList : Slot → PendingListElem
  activeList : Slot → ActiveListElem
  jtiCache : List GoString
  ecfAvailable : Bool
  /-- The time of the last reset and the period; none once the ticker is stopped. -/
  expiryTicker : Option (ℤ × ℤ)

def second : ℤ := 1000000000

/-- The first slot that a scan of a list stops at. -/
def firstSlot {α : Type} (p : α → Bool) (list : Slot → α) : Option Slot :=
  Fin.find? fun i => p (list i)

theorem firstSlot_some {α : Type} {p : α → Bool} {list : Slot → α} {i : Slot}
    (h : firstSlot p list = some i) : p (list i) = true :=
  (Fin.find?_eq_some_iff.mp h).1

theorem firstSlot_none {α : Type} {p : α → Bool} {list : Slot → α} :
    firstSlot p list = none ↔ ∀ i, p (list i) = false :=
  Fin.find?_eq_none_iff

-- The simplifier would unroll the scan over all slots.
attribute [irreducible] firstSlot

namespace State

/-- The state after initLists and initGatingId, whose random number is seed. -/
def initial (seed : Fin (9999 - 666)) (now : ℤ) : State where
  gatingId := 666 + seed
  pendingList _ := { gatingId := -1, consent := [], atGenData := {}, agtExpiryTime := [] }
  activeList _ := { gatingId := -1, atoken := [], atokenHandle := [], atExpiryTime := [] }
  jtiCache := []
  ecfAvailable := false
  expiryTicker := some (now, 24 * 3600 * second)

def setPending (s : State) (i : Slot) (e : PendingListElem) : State :=
  { s with pendingList := Function.update s.pendingList i e }

def setActive (s : State) (i : Slot) (e : ActiveListElem) : State :=
  { s with activeList := Function.update s.activeList i e }

/-- The first slot of the pending list with that gating id. -/
def pendingSlot (s : State) (gatingId : ℤ) : Option Slot :=
  firstSlot (fun e => e.gatingId = gatingId) s.pendingList

/-- The first slot of the active list with that gating id. -/
def activeSlot (s : State) (gatingId : ℤ) : Option Slot :=
  firstSlot (fun e => e.gatingId = gatingId) s.activeList

variable (s : State) (i : Slot)

@[simp] theorem setPending_pendingList (e : PendingListElem) :
    (s.setPending i e).pendingList = Function.update s.pendingList i e := rfl

@[simp] theorem setPending_activeList (e : PendingListElem) :
    (s.setPending i e).activeList = s.activeList := rfl

@[simp] theorem setPending_gatingId (e : PendingListElem) :
    (s.setPending i e).gatingId = s.gatingId := rfl

@[simp] theorem setActive_pendingList (e : ActiveListElem) :
    (s.setActive i e).pendingList = s.pendingList := rfl

@[simp] theorem setActive_activeList (e : ActiveListElem) :
    (s.setActive i e).activeList = Function.update s.activeList i e := rfl

@[simp] theorem setActive_gatingId (e : ActiveListElem) :
    (s.setActive i e).gatingId = s.gatingId := rfl

variable {s i}

theorem pendingSlot_some {g : ℤ} (h : s.pendingSlot g = some i) :
    (s.pendingList i).gatingId = g := by
  simpa using firstSlot_some h

theorem pendingSlot_none {g : ℤ} :
    s.pendingSlot g = none ↔ ∀ i, (s.pendingList i).gatingId ≠ g := by
  simp [pendingSlot, firstSlot_none]

theorem activeSlot_some {g : ℤ} (h : s.activeSlot g = some i) :
    (s.activeList i).gatingId = g := by
  simpa using firstSlot_some h

theorem activeSlot_none {g : ℤ} :
    s.activeSlot g = none ↔ ∀ i, (s.activeList i).gatingId ≠ g := by
  simp [activeSlot, firstSlot_none]

/-- The expiry times of the occupied slots, the pending list first. -/
def occupied (s : State) : List GoString :=
  ((List.finRange LISTSIZE).filterMap fun i =>
    if (s.pendingList i).gatingId = -1 then none else some (s.pendingList i).agtExpiryTime) ++
  ((List.finRange LISTSIZE).filterMap fun i =>
    if (s.activeList i).gatingId = -1 then none else some (s.activeList i).atExpiryTime)

end State

/-- The loops of setExpiryTicker; none where an expiry time cannot be read. -/
def scanExpiry : List GoString → ℤ × Bool → Option (ℤ × Bool)
  | [], r => some r
  | listExpiryStr :: rest, (minExpiry, isUpdated) =>
      match atoi listExpiryStr with
      | none => none
      | some listExpiry =>
          if listExpiry * second < minExpiry then scanExpiry rest (listExpiry * second, true)
          else scanExpiry rest (minExpiry, isUpdated)

def setExpiryTicker (now : ℤ) (s : State) : State :=
  match scanExpiry s.occupied (now + 10 * 8760 * 3600 * second, false) with
  | none => s
  | some (minExpiry, isUpdated) =>
      if 0 < minExpiry - now ∧ isUpdated then
        { s with expiryTicker := some (now, minExpiry - now) }
      else { s with expiryTicker := none }

section

variable (now : ℤ) (s : State)

/-- Setting the ticker touches nothing else. -/
theorem setExpiryTicker_eq :
    ∃ ticker, setExpiryTicker now s = { s with expiryTicker := ticker } := by
  unfold setExpiryTicker
  cases scanExpiry s.occupied (now + 10 * 8760 * 3600 * second, false) with
  | none => exact ⟨s.expiryTicker, rfl⟩
  | some r =>
    obtain ⟨minExpiry, isUpdated⟩ := r
    by_cases h : 0 < minExpiry - now ∧ isUpdated
    · exact ⟨_, if_pos h⟩
    · exact ⟨_, if_neg h⟩

@[simp] theorem setExpiryTicker_pendingList :
    (setExpiryTicker now s).pendingList = s.pendingList := by
  obtain ⟨ticker, h⟩ := setExpiryTicker_eq now s
  rw [h]

@[simp] theorem setExpiryTicker_activeList :
    (setExpiryTicker now s).activeList = s.activeList := by
  obtain ⟨ticker, h⟩ := setExpiryTicker_eq now s
  rw [h]

@[simp] theorem setExpiryTicker_gatingId :
    (setExpiryTicker now s).gatingId = s.gatingId := by
  obtain ⟨ticker, h⟩ := setExpiryTicker_eq now s
  rw [h]

end

def extractSignature (token : GoString) : GoString :=
  let lastDotIndex := lastIndexByte token 46
  if lastDotIndex ≠ -1 then token.drop (lastDotIndex + 1).toNat else []

/-- The entry goes to the first free slot, whose Consent is not written; without
a free slot nothing is stored. -/
def writeToPendingList (now : ℤ) (s : State) (gatingId : ℤ) (payload : AtGenPayload) :
    MayPanic State :=
  match s.pendingSlot (-1) with
  | none => some s
  | some i => do
      let expiry ← extractFromToken payload.token (str "exp")
      some (setExpiryTicker now (s.setPending i
        { s.pendingList i with gatingId, atGenData := payload, agtExpiryTime := expiry }))

def writeToActiveList (now : ℤ) (s : State) (gatingId : ℤ) (atoken : GoString) :
    MayPanic State :=
  match s.activeSlot (-1) with
  | none => some s
  | some i => do
      let expiry ← extractFromToken atoken (str "exp")
      some (setExpiryTicker now (s.setActive i
        { gatingId, atoken, atokenHandle := extractSignature atoken, atExpiryTime := expiry }))

theorem writeToPendingList_some {now : ℤ} {s s' : State} {gatingId : ℤ} {payload : AtGenPayload}
    (h : writeToPendingList now s gatingId payload = some s') :
    s.pendingSlot (-1) = none ∧ s' = s ∨
      ∃ i expiry, s.pendingSlot (-1) = some i ∧
        extractFromToken payload.token (str "exp") = some expiry ∧
        s' = setExpiryTicker now (s.setPending i
          { s.pendingList i with gatingId, atGenData := payload, agtExpiryTime := expiry }) := by
  unfold writeToPendingList at h
  cases hslot : s.pendingSlot (-1) with
  | none =>
    simp only [hslot, Option.some.injEq] at h
    exact .inl ⟨rfl, h.symm⟩
  | some i =>
    simp only [hslot, Option.bind_eq_bind, Option.bind_eq_some_iff, Option.some.injEq] at h
    obtain ⟨expiry, hexpiry, rfl⟩ := h
    exact .inr ⟨i, expiry, rfl, hexpiry, rfl⟩

theorem writeToActiveList_some {now : ℤ} {s s' : State} {gatingId : ℤ} {atoken : GoString}
    (h : writeToActiveList now s gatingId atoken = some s') :
    s.activeSlot (-1) = none ∧ s' = s ∨
      ∃ i expiry, s.activeSlot (-1) = some i ∧
        extractFromToken atoken (str "exp") = some expiry ∧
        s' = setExpiryTicker now (s.setActive i
          { gatingId, atoken, atokenHandle := extractSignature atoken,
            atExpiryTime := expiry }) := by
  unfold writeToActiveList at h
  cases hslot : s.activeSlot (-1) with
  | none =>
    simp only [hslot, Option.some.injEq] at h
    exact .inl ⟨rfl, h.symm⟩
  | some i =>
    simp only [hslot, Option.bind_eq_bind, Option.bind_eq_some_iff, Option.some.injEq] at h
    obtain ⟨expiry, hexpiry, rfl⟩ := h
    exact .inr ⟨i, expiry, rfl, hexpiry, rfl⟩

theorem writeToActiveList_pendingList {now : ℤ} {s s' : State} {gatingId : ℤ}
    {atoken : GoString} (h : writeToActiveList now s gatingId atoken = some s') :
    s'.pendingList = s.pendingList := by
  rcases writeToActiveList_some h with ⟨-, rfl⟩ | ⟨i, expiry, -, -, rfl⟩
  · rfl
  · simp

theorem writeToActiveList_gatingId {now : ℤ} {s s' : State} {gatingId : ℤ}
    {atoken : GoString} (h : writeToActiveList now s gatingId atoken = some s') :
    s'.gatingId = s.gatingId := by
  rcases writeToActiveList_some h with ⟨-, rfl⟩ | ⟨i, expiry, -, -, rfl⟩
  · rfl
  · simp

/-- The slot is marked free; its other fields stay. -/
def removeFromPendingList (s : State) (i : Slot) : State :=
  s.setPending i { s.pendingList i with gatingId := -1 }

def removeFromActiveList (s : State) (i : Slot) : State :=
  s.setActive i { s.activeList i with gatingId := -1 }

/-- Whether purgeLists stops at an entry: it is expired or its time is unreadable. -/
def stopsPurge (now : ℤ) (gatingId : ℤ) (expiry : GoString) : Bool :=
  gatingId ≠ -1 &&
    match atoi expiry with
    | none => true
    | some listExpiry => listExpiry * second < now

/-- The purge of one entry; the gating id of a purged active entry is returned. -/
def purgeLists (now : ℤ) (s : State) : State × Option ℤ :=
  match firstSlot (fun e => stopsPurge now e.gatingId e.agtExpiryTime) s.pendingList with
  | some i =>
      if (atoi (s.pendingList i).agtExpiryTime).isNone then (s, none)
      else (setExpiryTicker now (removeFromPendingList s i), none)
  | none =>
      match firstSlot (fun e => stopsPurge now e.gatingId e.atExpiryTime) s.activeList with
      | some i =>
          if (atoi (s.activeList i).atExpiryTime).isNone then (s, none)
          else
            (setExpiryTicker now (removeFromActiveList s i), some (s.activeList i).gatingId)
      | none => (s, none)

/-- newGatingId computes the successor of GatingId and does not store it. -/
def newGatingId (s : State) : ℤ := ((s.gatingId + 1) % 9999 : ℕ)

end VissServer.AtServer
