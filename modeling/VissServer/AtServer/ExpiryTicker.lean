import VissServer.AtServer.Listing

/-!
The expiry ticker over the time that passes. setExpiryTicker arms it for the earliest expiry
that it reads, stops it where an entry is overdue already, and leaves it as it runs where some
expiry cannot be read; a tick purges at most one entry, and none behind one that cannot be
read. A tick may come at any time, since Reset and Stop leave an old one in the channel.
-/
namespace VissServer.AtServer

open Go Utils Runs

namespace State

/-- The expiry text of a cell. -/
def expiryAt (s : State) : Cell → GoString :=
  Sum.elim (fun i => (s.pendingList i).agtExpiryTime) fun i => (s.activeList i).atExpiryTime

/-- The cell holds an entry that expires at z. -/
def Expires (s : State) (c : Cell) (z : ℤ) : Prop :=
  s.idAt c ≠ -1 ∧ ∃ listExpiry ∈ atoi (s.expiryAt c), z = listExpiry * second

/-- The cell holds an entry whose expiry cannot be read. -/
def Unreadable (s : State) (c : Cell) : Prop := s.idAt c ≠ -1 ∧ atoi (s.expiryAt c) = none

def AllReadable (s : State) : Prop := ∀ c, ¬ s.Unreadable c

theorem mem_occupied {s : State} {t : GoString} :
    t ∈ s.occupied ↔ ∃ c, s.idAt c ≠ -1 ∧ s.expiryAt c = t := by
  simp only [occupied, List.mem_append, List.mem_filterMap, List.mem_finRange, true_and]
  constructor
  · intro h
    obtain ⟨i, hi⟩ | ⟨i, hi⟩ := h
    · split at hi
      · cases hi
      · next hlive => exact ⟨.inl i, hlive, Option.some.inj hi⟩
    · split at hi
      · cases hi
      · next hlive => exact ⟨.inr i, hlive, Option.some.inj hi⟩
  · intro h
    obtain ⟨c, hlive, hexpiry⟩ := h
    cases c with
    | inl i =>
      refine .inl ⟨i, ?_⟩
      rw [← hexpiry]
      exact if_neg hlive
    | inr i =>
      refine .inr ⟨i, ?_⟩
      rw [← hexpiry]
      exact if_neg hlive

end State

/-- The bound of setExpiryTicker on the expiry times. -/
def scanLimit (now : ℤ) : ℤ := now + 10 * 8760 * 3600 * second

section

variable {ts : List GoString} {limit minExpiry : ℤ} {isUpdated updated : Bool}

theorem scanExpiry_none {r : ℤ × Bool} : scanExpiry ts r = none ↔ ∃ t ∈ ts, atoi t = none := by
  induction ts generalizing r with
  | nil => simp [scanExpiry]
  | cons t ts ih =>
    obtain ⟨limit, isUpdated⟩ := r
    cases hexpiry : atoi t with
    | none => simp [scanExpiry, hexpiry]
    | some listExpiry =>
      have hrest : scanExpiry (t :: ts) (limit, isUpdated) = none ↔ ∃ t ∈ ts, atoi t = none := by
        simp only [scanExpiry, hexpiry]
        split
        · exact ih
        · exact ih
      simp [hrest, hexpiry]

/-- What a scan finds: a lower bound of the limit and of all expiries, and either the limit
or an expiry below it. -/
theorem scanExpiry_some (h : scanExpiry ts (limit, isUpdated) = some (minExpiry, updated)) :
    minExpiry ≤ limit ∧ (∀ t ∈ ts, ∀ z ∈ atoi t, minExpiry ≤ z * second) ∧
      (minExpiry = limit ∧ updated = isUpdated ∨
        updated = true ∧ minExpiry < limit ∧ ∃ t ∈ ts, ∃ z ∈ atoi t, minExpiry = z * second) := by
  induction ts generalizing limit isUpdated with
  | nil =>
    obtain ⟨rfl, rfl⟩ := Prod.mk.inj (Option.some.inj h)
    exact ⟨le_refl _, by simp, .inl ⟨rfl, rfl⟩⟩
  | cons t ts ih =>
    simp only [scanExpiry] at h
    split at h
    · cases h
    · next listExpiry hexpiry =>
      split at h
      · next hless =>
        obtain ⟨hlimit, hall, hwhich⟩ := ih h
        refine ⟨by omega, ?_, .inr ⟨?_, by omega, ?_⟩⟩
        · intro t' ht' z hz
          obtain rfl | ht' := List.mem_cons.mp ht'
          · rw [hexpiry, Option.mem_some_iff] at hz
            subst hz
            exact hlimit
          · exact hall t' ht' z hz
        · obtain ⟨-, hupdated⟩ | ⟨hupdated, -⟩ := hwhich
          · exact hupdated
          · exact hupdated
        · obtain ⟨hmin, -⟩ | ⟨-, -, t', ht', hz⟩ := hwhich
          · exact ⟨t, List.mem_cons_self, listExpiry, hexpiry, hmin⟩
          · exact ⟨t', List.mem_cons_of_mem t ht', hz⟩
      · next hless =>
        obtain ⟨hlimit, hall, hwhich⟩ := ih h
        refine ⟨hlimit, ?_, ?_⟩
        · intro t' ht' z hz
          obtain rfl | ht' := List.mem_cons.mp ht'
          · rw [hexpiry, Option.mem_some_iff] at hz
            subst hz
            omega
          · exact hall t' ht' z hz
        · obtain hkept | ⟨hupdated, hbelow, t', ht', hz⟩ := hwhich
          · exact .inl hkept
          · exact .inr ⟨hupdated, hbelow, t', List.mem_cons_of_mem t ht', hz⟩

end

/-- A scan that reads all entries finds one to wait for: none is overdue, and the earliest
expires before the limit. -/
def ScanArms (now : ℤ) (s : State) : Prop :=
  (∀ c z, s.Expires c z → now < z) ∧ ∃ c z, s.Expires c z ∧ z < scanLimit now

section

variable {now : ℤ} {s : State}

theorem scanExpiry_occupied_none {r : ℤ × Bool} :
    scanExpiry s.occupied r = none ↔ ¬ s.AllReadable := by
  simp only [scanExpiry_none, State.mem_occupied, State.AllReadable, State.Unreadable, not_forall,
    not_not]
  constructor
  · intro h
    obtain ⟨t, ⟨c, hlive, rfl⟩, hnone⟩ := h
    exact ⟨c, hlive, hnone⟩
  · intro h
    obtain ⟨c, hlive, hnone⟩ := h
    exact ⟨_, ⟨c, hlive, rfl⟩, hnone⟩

/-- Where an expiry cannot be read, the ticker is left as it runs. -/
theorem setExpiryTicker_unreadable (h : ¬ s.AllReadable) : setExpiryTicker now s = s := by
  rw [setExpiryTicker, scanExpiry_occupied_none.mpr h]

theorem exists_scan (now : ℤ) (hread : s.AllReadable) : ∃ minExpiry isUpdated,
    scanExpiry s.occupied (scanLimit now, false) = some (minExpiry, isUpdated) ∧
    (∀ c z, s.Expires c z → minExpiry ≤ z) ∧
    (minExpiry = scanLimit now ∧ isUpdated = false ∨
      isUpdated = true ∧ minExpiry < scanLimit now ∧ ∃ c, s.Expires c minExpiry) := by
  cases hscan : scanExpiry s.occupied (scanLimit now, false) with
  | none => exact absurd hread (scanExpiry_occupied_none.mp hscan)
  | some r =>
    obtain ⟨minExpiry, isUpdated⟩ := r
    obtain ⟨-, hall, hwhich⟩ := scanExpiry_some hscan
    refine ⟨minExpiry, isUpdated, rfl, ?_, ?_⟩
    · intro c z hc
      obtain ⟨hlive, listExpiry, hexpiry, rfl⟩ := hc
      exact hall _ (State.mem_occupied.mpr ⟨c, hlive, rfl⟩) listExpiry hexpiry
    · obtain hkept | ⟨hupdated, hbelow, t, ht, z, hz, hmin⟩ := hwhich
      · exact .inl hkept
      · obtain ⟨c, hlive, rfl⟩ := State.mem_occupied.mp ht
        exact .inr ⟨hupdated, hbelow, c, hlive, z, hz, hmin⟩

theorem setExpiryTicker_arms (hread : s.AllReadable) (harms : ScanArms now s) :
    ∃ minExpiry, (setExpiryTicker now s).expiryTicker = some (now, minExpiry - now) ∧
      now < minExpiry ∧ ∀ c z, s.Expires c z → minExpiry ≤ z := by
  obtain ⟨minExpiry, isUpdated, hscan, hall, hwhich⟩ := exists_scan now hread
  obtain ⟨hlater, c, z, hc, hsoon⟩ := harms
  obtain ⟨hmin, -⟩ | ⟨hupdated, -, c', hc'⟩ := hwhich
  · have hbound : minExpiry ≤ z := hall c z hc
    omega
  · have hpositive : now < minExpiry := hlater c' minExpiry hc'
    refine ⟨minExpiry, ?_, hpositive, hall⟩
    rw [scanLimit] at hscan
    rw [setExpiryTicker, hscan]
    exact congrArg State.expiryTicker (if_pos ⟨by omega, hupdated⟩)

theorem setExpiryTicker_stops (hread : s.AllReadable) (hstops : ¬ ScanArms now s) :
    (setExpiryTicker now s).expiryTicker = none := by
  obtain ⟨minExpiry, isUpdated, hscan, hall, hwhich⟩ := exists_scan now hread
  have hno : ¬ (0 < minExpiry - now ∧ isUpdated = true) := by
    intro hset
    obtain ⟨hpositive, hupdated⟩ := hset
    obtain ⟨-, hfalse⟩ | ⟨-, hbelow, c, hc⟩ := hwhich
    · rw [hupdated] at hfalse
      cases hfalse
    · apply hstops
      refine ⟨?_, c, minExpiry, hc, hbelow⟩
      intro c' z hc'
      have hbound : minExpiry ≤ z := hall c' z hc'
      omega
  rw [scanLimit] at hscan
  rw [setExpiryTicker, hscan]
  exact congrArg State.expiryTicker (if_neg hno)

end

/-- The server with its clock and the time of the last tick. -/
structure Ticking where
  server : State
  clock : ℤ
  lastTick : ℤ

/-- The time of the last tick after an event. -/
def tickTime (lastTick : ℤ) (e : Moment × Event) : ℤ :=
  if e.2 = .expiryTick then e.1.now else lastTick

/-- One pass of the loop at a time that is not before the time of the last one. -/
def tickingStep (cfg : Config) (x : Ticking) (e : Moment × Event) :
    Option (Ticking × List Effect) :=
  if x.clock ≤ e.1.now then
    (step cfg e.1 x.server e.2).map fun r => (⟨r.1, e.1.now, tickTime x.lastTick e⟩, r.2)
  else none

def TickerStarted (x : Ticking) : Prop :=
  ∃ seed now, x = ⟨State.initial seed now, now, now⟩

abbrev TickingMove := Move Ticking (Moment × Event) (List Effect)

abbrev TickingRun (cfg : Config) := Run (tickingStep cfg) TickerStarted

/-- The first tick of a ticker behind the last one that was received. -/
def nextTick (expiryTicker : Option (ℤ × ℤ)) (lastTick : ℤ) : Option ℤ :=
  expiryTicker.map fun r => r.1 + r.2 * ((max r.1 lastTick - r.1) / r.2 + 1)

/-- A tick comes not later than each expiry, or it is due where the entry is overdue. -/
def InTime (tick : Option ℤ) (now : ℤ) (s : State) : Prop :=
  ∀ c z, s.Expires c z → ∃ t ∈ tick, t ≤ max z now

def Armed (x : Ticking) : Prop :=
  InTime (nextTick x.server.expiryTicker x.lastTick) x.clock x.server

def SomeOverdue (now : ℤ) (s : State) : Prop := ∃ c z, s.Expires c z ∧ z < now

/-- A tick that finds an overdue entry frees one. -/
def PurgesOverdue (x : TickingMove) : Prop :=
  x.event.2 = .expiryTick → SomeOverdue x.event.1.now x.before.server →
    ∃ c z, x.before.server.Expires c z ∧ z < x.event.1.now ∧ x.after.server.idAt c = -1

def TickerKept (x : TickingMove) : Prop := Armed x.after ∧ PurgesOverdue x

/-- The expiry text of the entry that purgeLists stops at. -/
def purgeStop (now : ℤ) (s : State) : Option GoString :=
  match firstSlot (fun e => stopsPurge now e.gatingId e.agtExpiryTime) s.pendingList with
  | some i => some (s.pendingList i).agtExpiryTime
  | none =>
      (firstSlot (fun e => stopsPurge now e.gatingId e.atExpiryTime) s.activeList).map fun i =>
        (s.activeList i).atExpiryTime

/-- Whether the step scans the lists to set the ticker: it writes an entry, or it is a
tick that purges one. -/
def rescans (cfg : Config) (x : ServerMove) : Bool :=
  tokenDue cfg x && (x.before.activeSlot (-1)).isSome ||
    sessionDue cfg x && (x.before.pendingSlot (-1)).isSome ||
    x.event.2 = .expiryTick &&
      (purgeStop x.event.1.now x.before).any fun t => (atoi t).isSome

/-- The move without the clock. -/
def served (x : TickingMove) : ServerMove := ⟨x.before.server, x.event, x.after.server, x.output⟩

/-- The next tick of the ticker as it ran before the step. -/
def running (x : TickingMove) : Option ℤ :=
  nextTick x.before.server.expiryTicker (tickTime x.before.lastTick x.event)

/-- The step leaves the ticker armed in time: a scan that can read all entries finds one
to wait for, and where the ticker is left as it runs, at a tick or at an unreadable entry,
it runs short enough. A tick that finds an overdue entry finds it before an unreadable one. -/
def TickerSafe (cfg : Config) (x : TickingMove) : Prop :=
  (rescans cfg (served x) = true → x.after.server.AllReadable →
    x.after.server.Vacant ∨ ScanArms x.event.1.now x.after.server) ∧
  (rescans cfg (served x) = true ∧ ¬ x.after.server.AllReadable ∨
      rescans cfg (served x) = false ∧ x.event.2 = .expiryTick →
    InTime (running x) x.event.1.now x.after.server) ∧
  (x.event.2 = .expiryTick → SomeOverdue x.event.1.now x.before.server →
    ∃ t ∈ purgeStop x.event.1.now x.before.server, (atoi t).isSome)

namespace State

variable {s : State} {i : Slot} {c : Cell} {now z : ℤ}

@[simp] theorem expiryAt_setExpiryTicker : (setExpiryTicker now s).expiryAt = s.expiryAt := by
  simp [expiryAt]

theorem expires_setExpiryTicker : (setExpiryTicker now s).Expires c z ↔ s.Expires c z := by
  simp [Expires]

theorem allReadable_setExpiryTicker : (setExpiryTicker now s).AllReadable ↔ s.AllReadable := by
  simp [AllReadable, Unreadable]

theorem expires_of_readable (hread : s.AllReadable) (hlive : s.idAt c ≠ -1) :
    ∃ z, s.Expires c z := by
  cases hexpiry : atoi (s.expiryAt c) with
  | none => exact absurd ⟨hlive, hexpiry⟩ (hread c)
  | some listExpiry => exact ⟨listExpiry * second, hlive, listExpiry, hexpiry, rfl⟩

/-- The entries of the one state are entries of the other, with the same expiry. -/
def Keeps (s s' : State) : Prop := ∀ c, s'.idAt c ≠ -1 → s.idAt c ≠ -1 ∧ s'.expiryAt c = s.expiryAt c

theorem Keeps.expires {s' : State} (h : s.Keeps s') (hc : s'.Expires c z) : s.Expires c z := by
  obtain ⟨hlive, hz⟩ := hc
  obtain ⟨hbefore, hexpiry⟩ := h c hlive
  rw [hexpiry] at hz
  exact ⟨hbefore, hz⟩

theorem keeps_setPending {entry : PendingListElem}
    (hid : entry.gatingId = -1 ∨ entry.gatingId = (s.pendingList i).gatingId)
    (hexpiry : entry.agtExpiryTime = (s.pendingList i).agtExpiryTime) :
    s.Keeps (s.setPending i entry) := by
  intro c hlive
  rw [idAt_setPending] at hlive
  by_cases hc : c = .inl i
  · subst hc
    rw [Function.update_self] at hlive
    refine ⟨?_, ?_⟩
    · rw [idAt_inl, ← hid.resolve_left hlive]
      exact hlive
    · simp [expiryAt, hexpiry]
  · rw [Function.update_of_ne hc] at hlive
    refine ⟨hlive, ?_⟩
    cases c with
    | inl j =>
      have hj : j ≠ i := fun h => hc (congrArg Sum.inl h)
      simp [expiryAt, hj]
    | inr j => rfl

theorem keeps_setActive {entry : ActiveListElem} (hid : entry.gatingId = -1) :
    s.Keeps (s.setActive i entry) := by
  intro c hlive
  rw [idAt_setActive] at hlive
  by_cases hc : c = .inr i
  · subst hc
    rw [Function.update_self] at hlive
    exact absurd hid hlive
  · rw [Function.update_of_ne hc] at hlive
    refine ⟨hlive, ?_⟩
    cases c with
    | inl j => rfl
    | inr j =>
      have hj : j ≠ i := fun h => hc (congrArg Sum.inr h)
      simp [expiryAt, hj]

theorem keeps_of_lists {s' : State} (hpending : s'.pendingList = s.pendingList)
    (hactive : s'.activeList = s.activeList) : s.Keeps s' := by
  intro c hlive
  have hid : s'.idAt = s.idAt := by simp [idAt, hpending, hactive]
  have hexpiry : s'.expiryAt = s.expiryAt := by simp [expiryAt, hpending, hactive]
  rw [hid] at hlive
  exact ⟨hlive, congrFun hexpiry c⟩

end State

section

variable {cfg : Config} {m : Moment} {s s' : State} {e : Event} {effects : List Effect}

/-- The step ends with a scan that sets the ticker. -/
def Scanned (m : Moment) (s s' : State) : Prop :=
  ∃ s₁, s' = setExpiryTicker m.now s₁ ∧ s₁.expiryTicker = s.expiryTicker

theorem accepted_none {g : ℤ} (h : inquiryId e = some g) : accepted cfg m s e = none := by
  cases haccepted : accepted cfg m s e with
  | none => rfl
  | some payload =>
    rw [accepted_inquiryId haccepted] at h
    cases h

theorem rescans_eq (htick : e ≠ .expiryTick) : rescans cfg ⟨s, (m, e), s', effects⟩ =
    (tokenDue cfg ⟨s, (m, e), s', effects⟩ && (s.activeSlot (-1)).isSome ||
      sessionDue cfg ⟨s, (m, e), s', effects⟩ && (s.pendingSlot (-1)).isSome) := by
  simp [rescans, htick]

/-- A message that names no session of an inquiry and grants nothing. -/
theorem rescans_other (htick : e ≠ .expiryTick) (haccepted : accepted cfg m s e = none)
    (hinquiry : inquiryId e = none) : rescans cfg ⟨s, (m, e), s', effects⟩ = false := by
  simp [rescans_eq htick, tokenDue, sessionDue, haccepted, inquired, hinquiry]

theorem rescans_inquiry {g : ℤ} {i : Slot} (htick : e ≠ .expiryTick)
    (hinquiry : inquiryId e = some g) (hi : s.pendingSlot g = some i) :
    rescans cfg ⟨s, (m, e), s', effects⟩ =
      (! withholds (s.pendingList i).consent && (s.activeSlot (-1)).isSome) := by
  simp [rescans_eq htick, tokenDue, sessionDue, accepted_none hinquiry, inquired, hinquiry, hi]

theorem rescans_quiet (htick : e ≠ .expiryTick)
    (haccepted : ∀ payload, accepted cfg m s e = some payload →
      checkifConsent cfg payload.purpose ∧ (s.ecfAvailable = false ∨ s.pendingSlot (-1) = none))
    (hinquiry : ∀ g, inquiryId e = some g → ∀ i, s.pendingSlot g = some i →
      (s.pendingList i).consent = str "NOT_SET") :
    rescans cfg ⟨s, (m, e), s', effects⟩ = false := by
  cases haccept : accepted cfg m s e with
  | some payload =>
    obtain ⟨hconsent, hecf | hfull⟩ := haccepted payload haccept
    · simp [rescans_eq htick, tokenDue, sessionDue, haccept, hconsent, hecf]
    · simp [rescans_eq htick, tokenDue, sessionDue, haccept, hconsent, hfull]
  | none =>
    cases hg : inquiryId e with
    | none => exact rescans_other htick haccept hg
    | some g =>
      cases hi : s.pendingSlot g with
      | none => simp [rescans_eq htick, tokenDue, sessionDue, haccept, inquired, hg, hi]
      | some i => simp [rescans_inquiry htick hg hi, hinquiry g hg i hi, withholds]

theorem removeFromPendingList_keeps (i : Slot) : s.Keeps (removeFromPendingList s i) :=
  State.keeps_setPending (.inl rfl) rfl

/-- A message but a tick ends with a scan where it writes an entry; else it leaves the
ticker and adds no entry. -/
theorem change_scan (htick : e ≠ .expiryTick) (h : Change cfg m s e s' effects) :
    (rescans cfg ⟨s, (m, e), s', effects⟩ = true ∧ Scanned m s s') ∨
      (rescans cfg ⟨s, (m, e), s', effects⟩ = false ∧ s'.expiryTicker = s.expiryTicker ∧
        s.Keeps s') := by
  cases h with
  | quiet hpending hactive _ hticker _ haccepted hinquiry _ _ =>
    exact .inr ⟨rescans_quiet htick haccepted hinquiry, hticker,
      State.keeps_of_lists hpending hactive⟩
  | ask haccepted hconsent hecf hi _ =>
    refine .inl ⟨?_, _, rfl, rfl⟩
    simp [rescans_eq htick, sessionDue, haccepted, hconsent, hecf, hi]
  | grant haccepted hconsent hwrite =>
    obtain ⟨hfull, rfl⟩ | ⟨i, expiry, hi, -, rfl⟩ := writeToActiveList_some hwrite
    · have hslot : s.activeSlot (-1) = none := hfull
      refine .inr ⟨?_, rfl, State.keeps_of_lists rfl rfl⟩
      simp [rescans_eq htick, sessionDue, haccepted, hconsent, hslot]
    · have hslot : s.activeSlot (-1) = some i := hi
      refine .inl ⟨?_, _, rfl, rfl⟩
      simp [rescans_eq htick, tokenDue, haccepted, hconsent, hslot]
  | refuse hinquiry hi hno =>
    refine .inr ⟨?_, rfl, removeFromPendingList_keeps _⟩
    simp [rescans_inquiry htick hinquiry hi, hno, withholds]
  | @yield _ _ i _ _ hinquiry hi hnotset hno hwrite =>
    have hholds : withholds (s.pendingList i).consent = false := by
      simp [withholds, hnotset, hno]
    obtain ⟨hfull, rfl⟩ | ⟨j, expiry, hj, -, rfl⟩ := writeToActiveList_some hwrite
    · have hslot : s.activeSlot (-1) = none := hfull
      refine .inr ⟨?_, rfl, removeFromPendingList_keeps _⟩
      simp [rescans_inquiry htick hinquiry hi, hslot]
    · have hslot : s.activeSlot (-1) = some j := hj
      refine .inl ⟨?_, _, rfl, rfl⟩
      simp [rescans_inquiry htick hinquiry hi, hholds, hslot]
  | reply hreply hi _ =>
    refine .inr ⟨rescans_other htick ?_ (replyId_inquiryId hreply), rfl,
      State.keeps_setPending (.inr rfl) rfl⟩
    cases haccepted : accepted cfg m s e with
    | none => rfl
    | some payload =>
      rw [accepted_replyId haccepted] at hreply
      cases hreply
  | cancelPending hcancel hi =>
    refine .inr ⟨rescans_other htick ?_ (cancelId_inquiryId hcancel), rfl,
      removeFromPendingList_keeps _⟩
    cases haccepted : accepted cfg m s e with
    | none => rfl
    | some payload =>
      rw [accepted_cancelId haccepted] at hcancel
      cases hcancel
  | cancelActive hcancel _ hi _ =>
    refine .inr ⟨rescans_other htick ?_ (cancelId_inquiryId hcancel), rfl,
      State.keeps_setActive rfl⟩
    cases haccepted : accepted cfg m s e with
    | none => rfl
    | some payload =>
      rw [accepted_cancelId haccepted] at hcancel
      cases hcancel
  | purgePending _ _ _ => exact absurd rfl htick
  | purgeActive _ _ _ => exact absurd rfl htick

theorem rescans_tick : rescans cfg ⟨s, (m, .expiryTick), s', effects⟩ =
    (purgeStop m.now s).any fun t => (atoi t).isSome := by
  simp [rescans, tokenDue, sessionDue, accepted, inquired, inquiryId]

/-- What purgeLists does: nothing where it stops at no entry or at one that cannot be read;
else it frees the overdue entry it stops at, and the ticker is set. -/
theorem purgeLists_cases :
    ((purgeStop m.now s).any (fun t => (atoi t).isSome) = false ∧ (purgeLists m.now s).1 = s) ∨
      ((purgeStop m.now s).any (fun t => (atoi t).isSome) = true ∧
        Scanned m s (purgeLists m.now s).1 ∧
        ∃ c z, s.Expires c z ∧ z < m.now ∧ (purgeLists m.now s).1.idAt c = -1) := by
  unfold purgeStop purgeLists
  cases hpending : firstSlot (fun e => stopsPurge m.now e.gatingId e.agtExpiryTime)
      s.pendingList with
  | some i =>
    cases hexpiry : atoi (s.pendingList i).agtExpiryTime with
    | none => exact .inl ⟨by simp [hexpiry], by simp [hexpiry]⟩
    | some listExpiry =>
      have hstops := firstSlot_some hpending
      obtain ⟨hlive, hpast⟩ := stopsPurge_some hstops hexpiry
      refine .inr ⟨by simp [hexpiry], ⟨removeFromPendingList s i, by simp [hexpiry], rfl⟩, .inl i,
        listExpiry * second, ⟨hlive, listExpiry, hexpiry, rfl⟩, hpast, ?_⟩
      simp [hexpiry, removeFromPendingList]
  | none =>
    cases hactive : firstSlot (fun e => stopsPurge m.now e.gatingId e.atExpiryTime)
        s.activeList with
    | none => exact .inl ⟨by simp, by simp⟩
    | some i =>
      cases hexpiry : atoi (s.activeList i).atExpiryTime with
      | none => exact .inl ⟨by simp [hexpiry], by simp [hexpiry]⟩
      | some listExpiry =>
        have hstops := firstSlot_some hactive
        obtain ⟨hlive, hpast⟩ := stopsPurge_some hstops hexpiry
        refine .inr ⟨by simp [hexpiry], ⟨removeFromActiveList s i, by simp [hexpiry], rfl⟩, .inr i,
          listExpiry * second, ⟨hlive, listExpiry, hexpiry, rfl⟩, hpast, ?_⟩
        simp [hexpiry, removeFromActiveList]

end

section

variable {cfg : Config} {x : TickingMove}

theorem nextTick_reset {now minExpiry lastTick : ℤ} (hlast : lastTick ≤ now) :
    nextTick (some (now, minExpiry - now)) lastTick = some minExpiry := by
  have hmax : max now lastTick = now := max_eq_left hlast
  have hsum : now + (minExpiry - now) = minExpiry := by omega
  simp [nextTick, hmax, hsum]

/-- After a scan that reads all entries the ticker is armed in time exactly where there is
nothing to wait for, or the scan finds an entry to wait for. -/
theorem armed_scanned_iff {x : Ticking} {s₁ : State} (hlast : x.lastTick ≤ x.clock)
    (hserver : x.server = setExpiryTicker x.clock s₁) (hread : x.server.AllReadable) :
    Armed x ↔ x.server.Vacant ∨ ScanArms x.clock x.server := by
  have hread₁ : s₁.AllReadable := by
    rw [hserver, State.allReadable_setExpiryTicker] at hread
    exact hread
  have hscan : ScanArms x.clock x.server ↔ ScanArms x.clock s₁ := by
    simp [ScanArms, hserver, State.expires_setExpiryTicker]
  constructor
  · intro harmed
    by_contra hno
    obtain ⟨hoccupied, hstops⟩ := not_or.mp hno
    rw [State.vacant_iff, not_forall] at hoccupied
    obtain ⟨c, hlive⟩ := hoccupied
    obtain ⟨z, hc⟩ := State.expires_of_readable hread hlive
    obtain ⟨t, ht, -⟩ := harmed c z hc
    rw [hserver, setExpiryTicker_stops hread₁ (hscan.not.mp hstops)] at ht
    cases ht
  · intro h
    obtain hvacant | harms := h
    · intro c z hc
      exact absurd (State.vacant_iff.mp hvacant c) hc.1
    · obtain ⟨minExpiry, hticker, -, hall⟩ := setExpiryTicker_arms hread₁ (hscan.mp harms)
      intro c z hc
      refine ⟨minExpiry, ?_, ?_⟩
      · rw [hserver, hticker, nextTick_reset hlast]
        rfl
      · rw [hserver, State.expires_setExpiryTicker] at hc
        have hbound : minExpiry ≤ z := hall c z hc
        omega

/-- Where the step leaves the ticker, the running one decides. -/
theorem armed_running_iff (hticker : x.after.server.expiryTicker = x.before.server.expiryTicker)
    (hclock : x.after.clock = x.event.1.now)
    (hlast : x.after.lastTick = tickTime x.before.lastTick x.event) :
    Armed x.after ↔ InTime (running x) x.event.1.now x.after.server := by
  rw [Armed, running, hticker, hclock, hlast]

/-- A step that adds no entry and is no tick keeps the ticker armed. -/
theorem Armed.keep (harmed : Armed x.before)
    (hticker : x.after.server.expiryTicker = x.before.server.expiryTicker)
    (hclock : x.before.clock ≤ x.after.clock) (hlast : x.after.lastTick = x.before.lastTick)
    (hkeeps : x.before.server.Keeps x.after.server) : Armed x.after := by
  intro c z hc
  obtain ⟨t, ht, hbound⟩ := harmed c z (hkeeps.expires hc)
  refine ⟨t, ?_, by omega⟩
  rw [hticker, hlast]
  exact ht

end

section

variable {cfg : Config} {x : TickingMove}

theorem tickingStep_some {before after : Ticking} {e : Moment × Event} {effects : List Effect}
    (h : tickingStep cfg before e = some (after, effects)) :
    before.clock ≤ e.1.now ∧ step cfg e.1 before.server e.2 = some (after.server, effects) ∧
      after.clock = e.1.now ∧ after.lastTick = tickTime before.lastTick e := by
  unfold tickingStep at h
  split at h
  · next hclock =>
    obtain ⟨r, hr, heq⟩ := Option.map_eq_some_iff.mp h
    obtain ⟨rfl, rfl⟩ := Prod.mk.inj heq
    exact ⟨hclock, hr, rfl, rfl⟩
  · cases h

/-- A step that ends with a scan leaves the ticker armed exactly where it is safe. -/
theorem armed_iff_of_scanned (hclock : x.after.clock = x.event.1.now)
    (hlast : x.after.lastTick = tickTime x.before.lastTick x.event)
    (hpast : x.after.lastTick ≤ x.after.clock)
    (hscanned : Scanned x.event.1 x.before.server x.after.server) :
    Armed x.after ↔
      (x.after.server.AllReadable →
        x.after.server.Vacant ∨ ScanArms x.event.1.now x.after.server) ∧
      (¬ x.after.server.AllReadable → InTime (running x) x.event.1.now x.after.server) := by
  obtain ⟨s₁, hserver, hticker⟩ := hscanned
  by_cases hread : x.after.server.AllReadable
  · rw [← hclock] at hserver ⊢
    simp [armed_scanned_iff hpast hserver hread, hread]
  · have hread₁ : ¬ s₁.AllReadable := by
      rw [hserver, State.allReadable_setExpiryTicker] at hread
      exact hread
    have hsame : x.after.server.expiryTicker = x.before.server.expiryTicker := by
      rw [hserver, setExpiryTicker_unreadable hread₁, hticker]
    simp [armed_running_iff hsame hclock hlast, hread]

theorem purgesOverdue_iff (hx : x.Of (tickingStep cfg)) :
    PurgesOverdue x ↔ (x.event.2 = .expiryTick → SomeOverdue x.event.1.now x.before.server →
      ∃ t ∈ purgeStop x.event.1.now x.before.server, (atoi t).isSome) := by
  obtain ⟨before, ⟨m, e⟩, after, effects⟩ := x
  obtain ⟨-, hstep, -, -⟩ := tickingStep_some hx
  unfold PurgesOverdue
  by_cases htick : e = .expiryTick
  · subst htick
    have hafter : (purgeLists m.now before.server).1 = after.server :=
      congrArg Prod.fst (Option.some.inj hstep)
    obtain ⟨hstop, hsame⟩ | ⟨hstop, -, hfreed⟩ :=
      purgeLists_cases (m := m) (s := before.server)
    · rw [hafter] at hsame
      constructor
      · intro hpurges _ hoverdue
        obtain ⟨c, z, hc, -, hfree⟩ := hpurges rfl hoverdue
        rw [hsame] at hfree
        exact absurd hfree hc.1
      · intro hreads _ hoverdue
        obtain ⟨t, ht, hsome⟩ := hreads rfl hoverdue
        rw [Option.mem_def.mp ht, Option.any_some, hsome] at hstop
        cases hstop
    · rw [hafter] at hfreed
      constructor
      · intro _ _ _
        obtain ⟨t, ht, hsome⟩ := (Option.any_eq_true ..).mp hstop
        exact ⟨t, ht, hsome⟩
      · intro _ _ _
        exact hfreed
  · simp [htick]

theorem move_scan (hx : x.Of (tickingStep cfg)) :
    (rescans cfg (served x) = true ∧ Scanned x.event.1 x.before.server x.after.server) ∨
      (rescans cfg (served x) = false ∧
        x.after.server.expiryTicker = x.before.server.expiryTicker ∧
        x.before.server.Keeps x.after.server) := by
  obtain ⟨before, ⟨m, e⟩, after, effects⟩ := x
  obtain ⟨-, hstep, -, -⟩ := tickingStep_some hx
  by_cases htick : e = .expiryTick
  · subst htick
    have hafter : (purgeLists m.now before.server).1 = after.server :=
      congrArg Prod.fst (Option.some.inj hstep)
    simp only [served, rescans_tick]
    obtain ⟨hstop, hsame⟩ | ⟨hstop, hscanned, -⟩ :=
      purgeLists_cases (m := m) (s := before.server)
    · rw [hafter] at hsame
      exact .inr ⟨hstop, by rw [hsame], State.keeps_of_lists (by rw [hsame]) (by rw [hsame])⟩
    · rw [hafter] at hscanned
      exact .inl ⟨hstop, hscanned⟩
  · exact change_scan htick (step_change hstep)

/-- One step keeps the ticker armed and purges exactly where it is safe. -/
theorem tickerKept_iff (harmed : Armed x.before) (hpast : x.before.lastTick ≤ x.before.clock)
    (hx : x.Of (tickingStep cfg)) : TickerKept x ↔ TickerSafe cfg x := by
  obtain ⟨hle, -, hclock, hlast⟩ := tickingStep_some hx
  have hpast' : x.after.lastTick ≤ x.after.clock := by
    rw [hclock, hlast, tickTime]
    split
    · exact le_refl _
    · exact hpast.trans hle
  unfold TickerKept TickerSafe
  rw [purgesOverdue_iff hx]
  obtain ⟨hrescans, hscanned⟩ | ⟨hrescans, hticker, hkeeps⟩ := move_scan hx
  · simp only [hrescans, armed_iff_of_scanned hclock hlast hpast' hscanned, true_and, forall_const,
      Bool.true_eq_false, false_and, or_false, and_assoc]
  · by_cases htick : x.event.2 = .expiryTick
    · simp [hrescans, htick, armed_running_iff hticker hclock hlast]
    · have hlast' : x.after.lastTick = x.before.lastTick := by
        rw [hlast, tickTime, if_neg htick]
      have hkept : Armed x.after := harmed.keep hticker (hclock ▸ hle) hlast' hkeeps
      simp [hrescans, htick, hkept]

end

section

variable {s : State} {p : ℤ → Prop}

theorem forall_expires : (∀ c z, s.Expires c z → p z) ↔
    ∀ t ∈ s.occupied, ∀ listExpiry ∈ atoi t, p (listExpiry * second) := by
  constructor
  · intro h t ht listExpiry hexpiry
    obtain ⟨c, hlive, rfl⟩ := State.mem_occupied.mp ht
    exact h c _ ⟨hlive, listExpiry, hexpiry, rfl⟩
  · intro h c z hc
    obtain ⟨hlive, listExpiry, hexpiry, rfl⟩ := hc
    exact h _ (State.mem_occupied.mpr ⟨c, hlive, rfl⟩) listExpiry hexpiry

theorem exists_expires : (∃ c z, s.Expires c z ∧ p z) ↔
    ∃ t ∈ s.occupied, ∃ listExpiry ∈ atoi t, p (listExpiry * second) := by
  constructor
  · intro h
    obtain ⟨c, z, ⟨hlive, listExpiry, hexpiry, rfl⟩, hp⟩ := h
    exact ⟨_, State.mem_occupied.mpr ⟨c, hlive, rfl⟩, listExpiry, hexpiry, hp⟩
  · intro h
    obtain ⟨t, ht, listExpiry, hexpiry, hp⟩ := h
    obtain ⟨c, hlive, rfl⟩ := State.mem_occupied.mp ht
    exact ⟨c, _, ⟨hlive, listExpiry, hexpiry, rfl⟩, hp⟩

theorem allReadable_iff : s.AllReadable ↔ ∀ t ∈ s.occupied, (atoi t).isSome := by
  constructor
  · intro h t ht
    obtain ⟨c, hlive, rfl⟩ := State.mem_occupied.mp ht
    exact Option.ne_none_iff_isSome.mp fun hnone => h c ⟨hlive, hnone⟩
  · intro h c hc
    have hsome := h _ (State.mem_occupied.mpr ⟨c, hc.1, rfl⟩)
    rw [hc.2] at hsome
    cases hsome

theorem vacant_iff_occupied : s.Vacant ↔ s.occupied = [] := by
  rw [State.vacant_iff, List.eq_nil_iff_forall_not_mem]
  constructor
  · intro h t ht
    obtain ⟨c, hlive, -⟩ := State.mem_occupied.mp ht
    exact hlive (h c)
  · intro h c
    by_contra hlive
    exact h _ (State.mem_occupied.mpr ⟨c, hlive, rfl⟩)

instance : Decidable s.AllReadable := decidable_of_iff _ allReadable_iff.symm

instance : Decidable s.Vacant := decidable_of_iff _ vacant_iff_occupied.symm

instance (now : ℤ) : Decidable (SomeOverdue now s) :=
  decidable_of_iff _ (exists_expires (p := fun z => z < now)).symm

instance (now : ℤ) : Decidable (ScanArms now s) :=
  decidable_of_iff _ (and_congr (forall_expires (p := fun z => now < z))
    (exists_expires (p := fun z => z < scanLimit now))).symm

instance (tick : Option ℤ) (now : ℤ) : Decidable (InTime tick now s) :=
  decidable_of_iff _ (forall_expires (p := fun z => ∃ t ∈ tick, t ≤ max z now)).symm

instance (cfg : Config) (x : TickingMove) : Decidable (TickerSafe cfg x) := by
  unfold TickerSafe
  infer_instance

end

/-- A run from the seed 0, given by its events and a property of its history. -/
theorem exists_tickingRun (cfg : Config) (es : List (Moment × Event))
    (p : History Ticking (Moment × Event) (List Effect) → Prop)
    (hes : ∃ r ∈ replay (tickingStep cfg) [] ⟨State.initial 0 0, 0, 0⟩ es, p r.1) :
    ∃ h s, TickingRun cfg h s ∧ p h :=
  exists_run_of_replay es p ⟨0, 0, rfl⟩ hes

/-- The sample moment, some nanoseconds later. -/
def laterMoment (nanos : ℤ) : Moment := { sampleMoment with now := sampleMoment.now + nanos }

end VissServer.AtServer
