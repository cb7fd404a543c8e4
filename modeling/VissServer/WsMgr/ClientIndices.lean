import Mathlib.Data.Int.Basic
import Mathlib.Data.List.Count
import Mathlib.Data.List.Nodup
import VissServer.Library.Runs

/-!
The client indices of the websocket server (utils/managerhandlers.go). The handler of an HTTP
request takes an index first and finds out then whether a session will start; until it has
started one it keeps the index in a variable that all handlers share. What a handler does
between two uses of this variable is one step here.
-/
namespace VissServer.WsMgr

open Runs

/-- true = free to use, false = occupied by client. -/
abbrev ClientIndexList := List Bool

/-- The loop stops at the first free index. -/
def getWsClientIndex (wsClientIndexList : ClientIndexList) : ℤ × ClientIndexList :=
  match wsClientIndexList.findIdx? (· = true) with
  | some i => (i, wsClientIndexList.set i false)
  | none => (-1, wsClientIndexList)

def returnWsClientIndex (wsClientIndexList : ClientIndexList) (index : ℕ) : ClientIndexList :=
  wsClientIndexList.set index true

/-- Whether the header Upgrade of a request is websocket. -/
structure Request where
  upgrade : Bool
  deriving DecidableEq

/-- How far the handler of a request has come: the next it does is to look at the index for
the first time, to look at it again and upgrade, or to start a session. -/
inductive Phase
  | indexTaken
  | headerChecked
  | upgraded
  deriving DecidableEq

structure Handler where
  request : Request
  phase : Phase
  deriving DecidableEq

/-- The live sessions by their client ids. -/
structure WsServer where
  wsClientIndexList : ClientIndexList
  clientIndex : ℤ
  handlers : List Handler
  sessions : List ℕ
  deriving DecidableEq

def initClientServer : WsServer where
  wsClientIndexList := List.replicate 20 true
  clientIndex := 0
  handlers := []
  sessions := []

/-- The handlers and the sessions are named by their places in the lists. -/
inductive Event
  | request (req : Request)
  | checkHeader (i : ℕ)
  | upgrade (i : ℕ) (succeeds : Bool)
  | startSession (i : ℕ)
  | endSession (k : ℕ)
  deriving DecidableEq

def WsServer.setPhase (s : WsServer) (i : ℕ) (h : Handler) (phase : Phase) : WsServer :=
  { s with handlers := s.handlers.set i { h with phase } }

/-- The handler returns. -/
def WsServer.dropHandler (s : WsServer) (i : ℕ) : WsServer :=
  { s with handlers := s.handlers.eraseIdx i }

/-- A handler that is in the phase that a step is about. -/
def WsServer.handlerAt (s : WsServer) (i : ℕ) (phase : Phase) : Option Handler :=
  s.handlers[i]?.filter (·.phase = phase)

def step (s : WsServer) : Event → Option (WsServer × Unit)
  | .request req =>
      let taken := getWsClientIndex s.wsClientIndexList
      some ({ s with wsClientIndexList := taken.2
                     clientIndex := taken.1
                     handlers := s.handlers ++ [⟨req, .indexTaken⟩] }, ())
  | .checkHeader i => (s.handlerAt i .indexTaken).map fun h =>
      (if s.clientIndex = -1 then s.dropHandler i
        else if h.request.upgrade then s.setPhase i h .headerChecked else s.dropHandler i, ())
  | .upgrade i succeeds => (s.handlerAt i .headerChecked).map fun h =>
      (if 0 ≤ s.clientIndex then
        if succeeds then s.setPhase i h .upgraded else s.dropHandler i
        else s.dropHandler i, ())
  | .startSession i => (s.handlerAt i .upgraded).map fun _ =>
      -- an index outside the channel lists panics, which ends the handler only
      (if 0 ≤ s.clientIndex ∧ s.clientIndex < 20 then
        { s.dropHandler i with sessions := s.sessions ++ [s.clientIndex.toNat] }
        else s.dropHandler i, ())
  | .endSession k => s.sessions[k]?.map fun clientId =>
      ({ s with wsClientIndexList := returnWsClientIndex s.wsClientIndexList clientId
                sessions := s.sessions.eraseIdx k }, ())

/-! ## Accounting -/

/-- The number of occupied entries. -/
def WsServer.occupied (s : WsServer) : ℕ := s.wsClientIndexList.count false

/-- No two live sessions hold one index, and where no handler is under way the occupied
entries are as many as the live sessions. -/
def WsServer.Accounted (s : WsServer) : Prop :=
  s.sessions.Nodup ∧ (s.handlers = [] → s.occupied = s.sessions.length)

instance decidableAccounted (s : WsServer) : Decidable s.Accounted :=
  inferInstanceAs (Decidable (_ ∧ (_ → _)))

/-- A handler takes an index only while no other one is under way, unless there is none to be
had by any of them; a handler that has an index is one of a websocket request, and its
upgrade succeeds. -/
def Orderly (s : WsServer) : Event → Prop
  | .request _ => s.handlers = [] ∨ s.clientIndex = -1 ∧ true ∉ s.wsClientIndexList
  | .checkHeader i => s.clientIndex ≠ -1 →
      ∀ h ∈ s.handlerAt i .indexTaken, h.request.upgrade = true
  | .upgrade _ succeeds => s.clientIndex ≠ -1 → succeeds = true
  | .startSession _ => True
  | .endSession _ => True

/-! ## The list of indices -/

section Lists

variable {l : ClientIndexList} {i : ℕ}

theorem getWsClientIndex_cases (l : ClientIndexList) :
    (∃ i : ℕ, getWsClientIndex l = ((i : ℤ), l.set i false) ∧ l[i]? = some true) ∨
      getWsClientIndex l = (-1, l) ∧ true ∉ l := by
  unfold getWsClientIndex
  cases hfind : l.findIdx? (· = true) with
  | some i =>
    obtain ⟨hlt, htrue, -⟩ := List.findIdx?_eq_some_iff_getElem.mp hfind
    left
    refine ⟨i, rfl, ?_⟩
    rw [List.getElem?_eq_getElem hlt]
    exact congrArg some (of_decide_eq_true htrue)
  | none =>
    right
    refine ⟨rfl, fun hmem => ?_⟩
    simpa using List.findIdx?_eq_none_iff.mp hfind true hmem

theorem count_occupy (h : l[i]? = some true) : (l.set i false).count false = l.count false + 1 := by
  obtain ⟨hlt, htrue⟩ := List.getElem?_eq_some_iff.mp h
  rw [List.count_set hlt, htrue]
  rfl

theorem count_return (h : l[i]? = some false) :
    (returnWsClientIndex l i).count false + 1 = l.count false := by
  obtain ⟨hlt, hfalse⟩ := List.getElem?_eq_some_iff.mp h
  have hpos : 0 < l.count false := List.count_pos_iff.mpr (List.mem_of_getElem? h)
  rw [returnWsClientIndex, List.count_set hlt, hfalse]
  simp only [beq_self_eq_true, if_true, show (true == false) = false from rfl, Bool.false_eq_true,
    if_false]
  omega

theorem occupied_other {b : Bool} {c : ℕ} (hne : i ≠ c) (h : l[c]? = some false) :
    (l.set i b)[c]? = some false := by
  rw [List.getElem?_set_ne hne]
  exact h

end Lists

/-! ## Orderly runs -/

/-- No handler has an index: none is under way, or the last index taken was none. -/
structure Idle (s : WsServer) : Prop where
  occupied : s.occupied = s.sessions.length
  handlers : s.handlers = [] ∨ s.clientIndex = -1 ∧ ∀ h ∈ s.handlers, h.phase = .indexTaken

/-- The handler under way has the index in the shared variable. -/
structure Holding (s : WsServer) (c : ℕ) : Prop where
  occupied : s.occupied = s.sessions.length + 1
  handlers : s.handlers.length = 1
  clientIndex : s.clientIndex = c
  entry : s.wsClientIndexList[c]? = some false
  fresh : c ∉ s.sessions

/-- The invariant of orderly runs. -/
structure Kept (s : WsServer) : Prop where
  length : s.wsClientIndexList.length = 20
  nodup : s.sessions.Nodup
  marked : ∀ c ∈ s.sessions, s.wsClientIndexList[c]? = some false
  holder : Idle s ∨ ∃ c, Holding s c

section Steps

variable {s s' : WsServer} {req : Request} {i k c : ℕ} {h : Handler} {phase : Phase}

theorem kept_init : Kept initClientServer where
  length := rfl
  nodup := .nil
  marked := by simp [initClientServer]
  holder := .inl ⟨rfl, .inl rfl⟩

theorem Holding.ne_none (hs : Holding s c) : s.clientIndex ≠ -1 := by
  rw [hs.clientIndex]
  omega

theorem Holding.lt (hs : Holding s c) (hlength : s.wsClientIndexList.length = 20) : c < 20 := by
  obtain ⟨hlt, -⟩ := List.getElem?_eq_some_iff.mp hs.entry
  omega

theorem handlerAt_eq_some :
    s.handlerAt i phase = some h ↔ s.handlers[i]? = some h ∧ h.phase = phase := by
  rw [WsServer.handlerAt, Option.filter_eq_some_iff, decide_eq_true_iff]

/-- The place of a handler, and the phase it is in where no handler has an index. -/
theorem Idle.of_handlerAt (hs : Idle s) (hi : s.handlerAt i phase = some h) :
    s.clientIndex = -1 ∧ phase = .indexTaken := by
  obtain ⟨hget, rfl⟩ := handlerAt_eq_some.mp hi
  have hmem := List.mem_of_getElem? hget
  rcases hs.handlers with hnil | ⟨hnone, hphase⟩
  · rw [hnil] at hmem
    exact absurd hmem List.not_mem_nil
  · exact ⟨hnone, hphase h hmem⟩

theorem Kept.setPhase (hs : Kept s) (hc : Holding s c) (phase : Phase) :
    Kept (s.setPhase i h phase) where
  length := hs.length
  nodup := hs.nodup
  marked := hs.marked
  holder := .inr ⟨c, hc.occupied, by rw [WsServer.setPhase, List.length_set, hc.handlers],
    hc.clientIndex, hc.entry, hc.fresh⟩

/-- Without an index a handler just returns. -/
theorem Kept.dropHandler (hs : Kept s) (hidle : Idle s) : Kept (s.dropHandler i) where
  length := hs.length
  nodup := hs.nodup
  marked := hs.marked
  holder := by
    refine .inl ⟨hidle.occupied, ?_⟩
    rcases hidle.handlers with hnil | ⟨hnone, hphase⟩
    · left
      rw [WsServer.dropHandler, hnil, List.eraseIdx_nil]
    · right
      exact ⟨hnone, fun h hh => hphase h (List.mem_of_mem_eraseIdx hh)⟩

theorem Kept.request (hs : Kept s) (hC : Orderly s (.request req))
    (hstep : step s (.request req) = some (s', ())) : Kept s' := by
  have hidle : Idle s := by
    rcases hs.holder with hidle | ⟨c, hc⟩
    · exact hidle
    · rcases hC with hnil | ⟨hnone, -⟩
      · simpa [hnil] using hc.handlers
      · exact absurd hnone hc.ne_none
  obtain ⟨rfl, -⟩ := Prod.mk.inj (Option.some.inj hstep)
  rcases getWsClientIndex_cases s.wsClientIndexList with ⟨i, hget, htrue⟩ | ⟨hget, hfull⟩
  · have hnil : s.handlers = [] := by
      rcases hC with hnil | ⟨-, hfull⟩
      · exact hnil
      · exact absurd (List.mem_of_getElem? htrue) hfull
    have hlt := (List.getElem?_eq_some_iff.mp htrue).1
    have hfresh : i ∉ s.sessions := by
      intro hmem
      rw [hs.marked i hmem] at htrue
      exact absurd htrue (by decide)
    rw [hget, hnil]
    refine ⟨by rw [List.length_set, hs.length], hs.nodup, ?_, .inr ⟨i, ?_, rfl, rfl, ?_, hfresh⟩⟩
    · intro c hc
      have hne : i ≠ c := fun heq => hfresh (heq ▸ hc)
      exact occupied_other hne (hs.marked c hc)
    · rw [← hidle.occupied]
      exact count_occupy htrue
    · exact List.getElem?_set_self hlt
  · rw [hget]
    refine ⟨hs.length, hs.nodup, hs.marked, .inl ⟨hidle.occupied, .inr ⟨rfl, ?_⟩⟩⟩
    intro h hh
    rcases List.mem_append.mp hh with hh | hh
    · rcases hidle.handlers with hnil | ⟨-, hphase⟩
      · rw [hnil] at hh
        exact absurd hh List.not_mem_nil
      · exact hphase h hh
    · rw [List.mem_singleton.mp hh]

theorem Kept.checkHeader (hs : Kept s) (hC : Orderly s (.checkHeader i))
    (hstep : step s (.checkHeader i) = some (s', ())) : Kept s' := by
  obtain ⟨h, hi, heq⟩ := Option.map_eq_some_iff.mp hstep
  obtain ⟨rfl, -⟩ := Prod.mk.inj heq
  rcases hs.holder with hidle | ⟨c, hc⟩
  · rw [if_pos (hidle.of_handlerAt hi).1]
    exact hs.dropHandler hidle
  · rw [if_neg hc.ne_none, if_pos (hC hc.ne_none h hi)]
    exact hs.setPhase hc _

theorem Kept.upgrade {succeeds : Bool} (hs : Kept s) (hC : Orderly s (.upgrade i succeeds))
    (hstep : step s (.upgrade i succeeds) = some (s', ())) : Kept s' := by
  obtain ⟨h, hi, heq⟩ := Option.map_eq_some_iff.mp hstep
  obtain ⟨rfl, -⟩ := Prod.mk.inj heq
  rcases hs.holder with hidle | ⟨c, hc⟩
  · exact absurd (hidle.of_handlerAt hi).2 (by decide)
  · have hnonneg : 0 ≤ s.clientIndex := by
      rw [hc.clientIndex]
      omega
    rw [if_pos hnonneg, if_pos (hC hc.ne_none)]
    exact hs.setPhase hc _

/-- The session takes over the index of its handler. -/
theorem Kept.startSession (hs : Kept s) (hstep : step s (.startSession i) = some (s', ())) :
    Kept s' := by
  obtain ⟨h, hi, heq⟩ := Option.map_eq_some_iff.mp hstep
  obtain ⟨rfl, -⟩ := Prod.mk.inj heq
  rcases hs.holder with hidle | ⟨c, hc⟩
  · exact absurd (hidle.of_handlerAt hi).2 (by decide)
  · have hlt := hc.lt hs.length
    have hrange : 0 ≤ s.clientIndex ∧ s.clientIndex < 20 := by
      rw [hc.clientIndex]
      omega
    have hnil : s.handlers.eraseIdx i = [] := by
      obtain ⟨hi, -⟩ := handlerAt_eq_some.mp hi
      obtain ⟨hilt, -⟩ := List.getElem?_eq_some_iff.mp hi
      have hone := hc.handlers
      rw [← List.length_eq_zero_iff, List.length_eraseIdx_of_lt hilt, hone]
    rw [if_pos hrange, hc.clientIndex, Int.toNat_natCast]
    refine ⟨hs.length, ?_, ?_, .inl ⟨?_, .inl hnil⟩⟩
    · exact List.nodup_append.mpr ⟨hs.nodup, List.nodup_singleton c, fun a ha b hb => by
        rw [List.mem_singleton.mp hb]
        rintro rfl
        exact hc.fresh ha⟩
    · intro c' hc'
      rcases List.mem_append.mp hc' with hc' | hc'
      · exact hs.marked c' hc'
      · rw [List.mem_singleton.mp hc']
        exact hc.entry
    · rw [List.length_append, List.length_singleton]
      exact hc.occupied

/-- The session gives its index back. -/
theorem Kept.endSession (hs : Kept s) (hstep : step s (.endSession k) = some (s', ())) :
    Kept s' := by
  obtain ⟨c, hk, heq⟩ := Option.map_eq_some_iff.mp hstep
  obtain ⟨rfl, -⟩ := Prod.mk.inj heq
  obtain ⟨hlt, hget⟩ := List.getElem?_eq_some_iff.mp hk
  have hmem := List.mem_of_getElem? hk
  have hcount := count_return (hs.marked c hmem)
  have hlength := List.length_eraseIdx_of_lt hlt
  have hgone : c ∉ s.sessions.eraseIdx k := by
    rw [List.mem_eraseIdx_iff_getElem?]
    rintro ⟨i, hne, hi⟩
    exact hne ((List.getElem?_inj hlt hs.nodup).mp (hk.trans hi.symm)).symm
  refine ⟨?_, hs.nodup.eraseIdx k, ?_, ?_⟩
  · rw [returnWsClientIndex, List.length_set]
    exact hs.length
  · intro c' hc'
    have hne : c ≠ c' := fun heq => hgone (heq ▸ hc')
    exact occupied_other hne (hs.marked c' (List.mem_of_mem_eraseIdx hc'))
  · rcases hs.holder with hidle | ⟨c', hc'⟩
    · refine .inl ⟨?_, hidle.handlers⟩
      have hbefore : s.wsClientIndexList.count false = s.sessions.length := hidle.occupied
      simp only [WsServer.occupied]
      omega
    · have hbefore : s.wsClientIndexList.count false = s.sessions.length + 1 := hc'.occupied
      have hne : c ≠ c' := fun heq => hc'.fresh (heq ▸ hmem)
      refine .inr ⟨c', ?_, hc'.handlers, hc'.clientIndex, occupied_other hne hc'.entry,
        fun h => hc'.fresh (List.mem_of_mem_eraseIdx h)⟩
      simp only [WsServer.occupied]
      omega

end Steps

theorem Kept.step {x : Move WsServer Event Unit} (hs : Kept x.before) (hx : x.Of step)
    (hC : Orderly x.before x.event) : Kept x.after := by
  obtain ⟨s, event, s', u⟩ := x
  cases event with
  | request req => exact hs.request hC hx
  | checkHeader i => exact hs.checkHeader hC hx
  | upgrade i succeeds => exact hs.upgrade hC hx
  | startSession i => exact hs.startSession hx
  | endSession k => exact hs.endSession hx

theorem Kept.accounted {s : WsServer} (hs : Kept s) : s.Accounted := by
  refine ⟨hs.nodup, fun hnil => ?_⟩
  rcases hs.holder with hidle | ⟨c, hc⟩
  · exact hidle.occupied
  · have hone := hc.handlers
    rw [hnil] at hone
    exact absurd hone (by decide)

/-- Every run of the server. -/
abbrev ServerRun := Run step (· = initClientServer)

/-- In an orderly run the occupied entries are accounted for by the live sessions, in every
state that is reached. -/
theorem index_accounting {h : History WsServer Event Unit} {s : WsServer} (hrun : ServerRun h s)
    (hC : Always (fun _ x => Orderly x.before x.event) h) : s.Accounted := by
  apply Kept.accounted
  refine hrun.invariant_of (I := fun _ s => Kept s) hC ?_ ?_
  · rintro s rfl
    exact kept_init
  · intro _ x hx hstep hC
    exact hx.step hstep hC

/-- Two sessions, the first of which ends. -/
def orderlyEvents : List Event :=
  [.request ⟨true⟩, .checkHeader 0, .upgrade 0 true, .startSession 0,
    .request ⟨true⟩, .checkHeader 0, .upgrade 0 true, .startSession 0, .endSession 0]

instance decidableOrderly (s : WsServer) : ∀ e, Decidable (Orderly s e)
  | .request _ => inferInstanceAs (Decidable (_ ∨ _))
  | .checkHeader _ => inferInstanceAs (Decidable (_ → ∀ h ∈ _, _))
  | .upgrade _ _ => inferInstanceAs (Decidable (_ → _))
  | .startSession _ => inferInstanceAs (Decidable True)
  | .endSession _ => inferInstanceAs (Decidable True)

theorem index_accounting_two_sessions :
    ∃ h s, ServerRun h s ∧ s.sessions = [1] ∧ s.Accounted := by
  obtain ⟨r, hr, hsessions, hC⟩ : ∃ r ∈ replay step [] initClientServer orderlyEvents,
      r.2.sessions = [1] ∧ Always (fun _ x => Orderly x.before x.event) r.1 := by decide
  have hrun : ServerRun r.1 r.2 := .of_replay (.start rfl) hr
  exact ⟨r.1, r.2, hrun, hsessions, index_accounting hrun hC⟩

/-- Two handlers that take an index one after the other both start with the second one. -/
example : ∃ r ∈ replay step [] initClientServer
    [.request ⟨true⟩, .request ⟨true⟩, .checkHeader 0, .checkHeader 1, .upgrade 0 true,
      .upgrade 1 true, .startSession 0, .startSession 0],
    r.2.sessions = [1, 1] ∧ r.2.wsClientIndexList.take 2 = [false, false] := by decide

/-- After a request without the header an entry stays occupied that no session holds. -/
theorem plain_request_leaks : ¬ ∀ h s, ServerRun h s → s.Accounted := by
  intro hall
  obtain ⟨r, hr, hleak⟩ : ∃ r ∈ replay step [] initClientServer
      [.request ⟨false⟩, .checkHeader 0], ¬ r.2.Accounted := by decide
  exact hleak (hall r.1 r.2 (.of_replay (.start rfl) hr))

end VissServer.WsMgr
