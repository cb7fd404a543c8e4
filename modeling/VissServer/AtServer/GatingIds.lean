import Mathlib.Data.Sum.Basic
import VissServer.AtServer.Steps
import VissServer.Library.Tables

/-!
Gating ids over the pending list and the active list taken together. newGatingId
gives the same id to every entry, so the ids stay apart only while at most one entry
is live.
-/
namespace VissServer.AtServer

open Go Utils Runs

/-- A slot of the pending list or of the active list. -/
abbrev Cell := Slot ⊕ Slot

namespace State

def content (s : State) : Cell → PendingListElem ⊕ ActiveListElem :=
  Sum.map s.pendingList s.activeList

def idAt (s : State) : Cell → ℤ :=
  Sum.elim (fun i => (s.pendingList i).gatingId) fun i => (s.activeList i).gatingId

/-- No entry of either list is live. -/
def Vacant (s : State) : Prop :=
  (∀ i, (s.pendingList i).gatingId = -1) ∧ ∀ i, (s.activeList i).gatingId = -1

/-- No two live entries have the same gating id. -/
def UniqueIds (s : State) : Prop := Tables.Unique (-1) s.idAt

/-- The ids that are in use were all given by newGatingId. -/
def SameId (s : State) : Prop := ∀ c, s.idAt c = -1 ∨ s.idAt c = newGatingId s

variable (s : State) (i : Slot)

@[simp] theorem idAt_inl : s.idAt (.inl i) = (s.pendingList i).gatingId := rfl

@[simp] theorem idAt_inr : s.idAt (.inr i) = (s.activeList i).gatingId := rfl

@[simp] theorem idAt_setPending (e : PendingListElem) :
    (s.setPending i e).idAt = Function.update s.idAt (.inl i) e.gatingId := by
  funext c
  cases c with
  | inl j =>
    by_cases hj : j = i
    · subst hj
      simp
    · simp [hj]
  | inr j => simp

@[simp] theorem idAt_setActive (e : ActiveListElem) :
    (s.setActive i e).idAt = Function.update s.idAt (.inr i) e.gatingId := by
  funext c
  cases c with
  | inl j => simp
  | inr j =>
    by_cases hj : j = i
    · subst hj
      simp
    · simp [hj]

theorem content_setPending (e : PendingListElem) (c : Cell) (hc : c ≠ .inl i) :
    (s.setPending i e).content c = s.content c := by
  cases c with
  | inl j =>
    have hj : j ≠ i := fun h => hc (congrArg Sum.inl h)
    simp [content, hj]
  | inr j => rfl

theorem content_setActive (e : ActiveListElem) (c : Cell) (hc : c ≠ .inr i) :
    (s.setActive i e).content c = s.content c := by
  cases c with
  | inl j => rfl
  | inr j =>
    have hj : j ≠ i := fun h => hc (congrArg Sum.inr h)
    simp [content, hj]

@[simp] theorem idAt_setExpiryTicker (now : ℤ) : (setExpiryTicker now s).idAt = s.idAt := by
  simp [idAt]

@[simp] theorem content_setExpiryTicker (now : ℤ) :
    (setExpiryTicker now s).content = s.content := by
  simp [content]

variable {s}

theorem vacant_iff : s.Vacant ↔ ∀ c, s.idAt c = -1 :=
  ⟨fun h c => by cases c with
    | inl i => exact h.1 i
    | inr i => exact h.2 i, fun h => ⟨fun i => h (.inl i), fun i => h (.inr i)⟩⟩

theorem newGatingId_ne : newGatingId s ≠ -1 := by
  unfold newGatingId
  omega

/-- Where all ids are the same and apart, each list has a free slot. -/
theorem exists_free (hunique : s.UniqueIds) (hsame : s.SameId) :
    s.pendingSlot (-1) ≠ none ∧ s.activeSlot (-1) ≠ none := by
  have hslots : (0 : Slot) ≠ 1 := by decide
  constructor
  · intro hnone
    rcases hunique.free_or_free hsame (i := .inl 0) (j := .inl 1) (by simpa using hslots) with h | h
    · exact pendingSlot_none.mp hnone 0 h
    · exact pendingSlot_none.mp hnone 1 h
  · intro hnone
    rcases hunique.free_or_free hsame (i := .inr 0) (j := .inr 1) (by simpa using hslots) with h | h
    · exact activeSlot_none.mp hnone 0 h
    · exact activeSlot_none.mp hnone 1 h

end State

/-- The id that an at-inquiry, a consent-reply or a consent-cancel names. -/
def namedId (e : Event) : Option ℤ := (inquiryId e).or ((replyId e).or (cancelId e))

/-- The slot that the scan for the named id stops at; a cancel goes on to the active
list. -/
def scanned (s : State) (e : Event) : Option Cell :=
  (namedId e).bind fun g =>
    match s.pendingSlot g with
    | some i => some (.inl i)
    | none => if (cancelId e).isSome then (s.activeSlot g).map .inr else none

/-- A cell is touched by a move that reads it for the id it names, or changes it. -/
def Touches (x : ServerMove) (c : Cell) : Prop :=
  scanned x.before x.event.2 = some c ∨ x.after.content c ≠ x.before.content c

/-- A message touches the live entry that has the id it names, or the free slot that
this entry moves to. -/
def TouchesNamed (x : ServerMove) : Prop :=
  ∀ g, namedId x.event.2 = some g → ∀ c, Touches x c →
    g ≠ -1 ∧ (x.before.idAt c = g ∨ x.before.idAt c = -1 ∧ x.after.idAt c = g)

/-- An expiry purge changes at most one entry, the one whose id it sends to the core. -/
def PurgesOne (x : ServerMove) : Prop :=
  x.event.2 = .expiryTick → ∀ c, x.after.content c ≠ x.before.content c →
    (∀ d, x.after.content d ≠ x.before.content d → d = c) ∧
      ∀ id, .cancel id ∈ x.output → id = itoa (x.before.idAt c)

/-- The ids are unique before and after a move, which keeps to the entry it names. -/
def IdsKept (_ : ServerHistory) (x : ServerMove) : Prop :=
  x.before.UniqueIds ∧ x.after.UniqueIds ∧ TouchesNamed x ∧ PurgesOne x

/-- An at-request that passes all checks, and for which the consent framework is there
if it is needed, finds both lists without a live entry; no message names the id -1. -/
def OneSession (cfg : Config) (_ : ServerHistory) (x : ServerMove) : Prop :=
  (∀ payload ∈ accepted cfg x.event.1 x.before x.event.2,
    (checkifConsent cfg payload.purpose → x.before.ecfAvailable) → x.before.Vacant) ∧
    namedId x.event.2 ≠ some (-1)

instance (s : State) : Decidable s.Vacant := by
  unfold State.Vacant
  infer_instance

instance (cfg : Config) (past : ServerHistory) (x : ServerMove) :
    Decidable (OneSession cfg past x) := by
  unfold OneSession
  infer_instance

section

variable {e : Event} {g : ℤ}

theorem namedId_inquiry (h : inquiryId e = some g) : namedId e = some g := by
  simp [namedId, h]

theorem namedId_reply (h : replyId e = some g) : namedId e = some g := by
  simp [namedId, h, replyId_inquiryId h]

theorem namedId_cancel (h : cancelId e = some g) : namedId e = some g := by
  simp [namedId, h, cancelId_inquiryId h, cancelId_replyId h]

theorem namedId_accepted {cfg : Config} {m : Moment} {s : State} {payload : AtGenPayload}
    (h : accepted cfg m s e = some payload) : namedId e = none := by
  simp [namedId, accepted_inquiryId h, accepted_replyId h, accepted_cancelId h]

theorem accepted_of_namedId {cfg : Config} {m : Moment} {s : State}
    (h : namedId e = some g) : accepted cfg m s e = none := by
  cases ha : accepted cfg m s e with
  | none => rfl
  | some payload => simp [namedId_accepted ha] at h

theorem idAt_of_scanned {s : State} {c : Cell} (hg : namedId e = some g)
    (hc : scanned s e = some c) : s.idAt c = g := by
  simp only [scanned, hg, Option.bind_some] at hc
  cases hi : s.pendingSlot g with
  | some i =>
    simp only [hi, Option.some.injEq] at hc
    rw [← hc]
    exact State.pendingSlot_some hi
  | none =>
    simp only [hi, Option.ite_none_right_eq_some, Option.map_eq_some_iff] at hc
    obtain ⟨-, j, hj, rfl⟩ := hc
    exact State.activeSlot_some hj

/-- A free slot of the pending list is scanned for the id -1. -/
theorem scanned_minus_one {s : State} (hg : namedId e = some (-1))
    (hfree : s.pendingSlot (-1) ≠ none) : ∃ c, scanned s e = some c := by
  obtain ⟨i, hi⟩ := Option.ne_none_iff_exists'.mp hfree
  exact ⟨.inl i, by simp [scanned, hg, hi]⟩

end

section

variable {now g : ℤ} {atoken : GoString} {s s' : State}

/-- What writing to the active list does to the ids and contents. -/
theorem writeToActiveList_cells (h : writeToActiveList now s g atoken = some s') :
    s.activeSlot (-1) = none ∧ s' = s ∨
      ∃ j, s.idAt (.inr j) = -1 ∧ s'.idAt = Function.update s.idAt (.inr j) g ∧
        ∀ c, c ≠ .inr j → s'.content c = s.content c := by
  rcases writeToActiveList_some h with hfull | ⟨j, expiry, hj, -, rfl⟩
  · exact .inl hfull
  · refine .inr ⟨j, State.activeSlot_some hj, by simp, fun c hc => ?_⟩
    rw [State.content_setExpiryTicker]
    exact State.content_setActive s j _ c hc

theorem content_removeFromPendingList {i : Slot} {c : Cell}
    (h : (removeFromPendingList s i).content c ≠ s.content c) : c = .inl i := by
  by_contra hc
  exact h (State.content_setPending s i _ c hc)

theorem content_removeFromActiveList {i : Slot} {c : Cell}
    (h : (removeFromActiveList s i).content c ≠ s.content c) : c = .inr i := by
  by_contra hc
  exact h (State.content_setActive s i _ c hc)

end

section

variable {cfg : Config} {m : Moment} {s s' : State} {e : Event} {effects : List Effect} {g : ℤ}

/-- Every cell that a named message changes has its id, or gets it. -/
theorem Change.named (h : Change cfg m s e s' effects) (hg : namedId e = some g) {c : Cell}
    (hc : s'.content c ≠ s.content c) : s.idAt c = g ∨ s.idAt c = -1 ∧ s'.idAt c = g := by
  cases h with
  | quiet hpending hactive _ _ _ _ _ _ _ => simp [State.content, hpending, hactive] at hc
  | ask haccepted _ _ _ _ => simp [namedId_accepted haccepted] at hg
  | grant haccepted _ _ => simp [namedId_accepted haccepted] at hg
  | refuse hinquiry hi _ =>
    rw [namedId_inquiry hinquiry, Option.some.injEq] at hg
    rw [content_removeFromPendingList hc, ← hg]
    exact .inl (State.pendingSlot_some hi)
  | @yield _ g' i _ _ hinquiry hi _ _ hwrite =>
    rw [namedId_inquiry hinquiry, Option.some.injEq] at hg
    subst hg
    have hremoved : (removeFromPendingList s i).content c ≠ s.content c → s.idAt c = g' := by
      intro hne
      rw [content_removeFromPendingList hne]
      exact State.pendingSlot_some hi
    rcases writeToActiveList_cells hwrite with ⟨-, rfl⟩ | ⟨j, hj, hids, hother⟩
    · exact .inl (hremoved hc)
    · by_cases hcj : c = .inr j
      · subst hcj
        exact .inr ⟨hj, by rw [hids, Function.update_self]⟩
      · exact .inl (hremoved (hother c hcj ▸ hc))
  | @reply _ g' i consent _ hreply hi _ =>
    rw [namedId_reply hreply, Option.some.injEq] at hg
    have hci : c = .inl i := by
      by_contra hne
      exact hc (State.content_setPending s i _ c hne)
    rw [hci, ← hg]
    exact .inl (State.pendingSlot_some hi)
  | cancelPending hcancel hi =>
    rw [namedId_cancel hcancel, Option.some.injEq] at hg
    rw [content_removeFromPendingList hc, ← hg]
    exact .inl (State.pendingSlot_some hi)
  | cancelActive hcancel _ hi _ =>
    rw [namedId_cancel hcancel, Option.some.injEq] at hg
    rw [content_removeFromActiveList hc, ← hg]
    exact .inl (State.activeSlot_some hi)
  | purgePending _ _ _ => simp [namedId, inquiryId, replyId, cancelId] at hg
  | purgeActive _ _ _ => simp [namedId, inquiryId, replyId, cancelId] at hg

/-- What a change does to the ids: they stay, one is freed, one moves from the pending
list to the active list, or an accepted at-request fills a free slot. -/
inductive IdChange (cfg : Config) (m : Moment) (s : State) (e : Event) (s' : State) : Prop
  | same : s'.idAt = s.idAt →
      (∀ payload, accepted cfg m s e = some payload →
        (checkifConsent cfg payload.purpose → s.ecfAvailable) →
        s.pendingSlot (-1) = none ∨ s.activeSlot (-1) = none) → IdChange cfg m s e s'
  | freed (c : Cell) : accepted cfg m s e = none →
      s'.idAt = Function.update s.idAt c (-1) → IdChange cfg m s e s'
  | moved (c d : Cell) : accepted cfg m s e = none →
      Function.update s.idAt c (-1) d = -1 →
      s'.idAt = Function.update (Function.update s.idAt c (-1)) d (s.idAt c) →
      IdChange cfg m s e s'
  | filled (c : Cell) (payload : AtGenPayload) : accepted cfg m s e = some payload →
      (checkifConsent cfg payload.purpose → s.ecfAvailable) → s.idAt c = -1 →
      s'.idAt = Function.update s.idAt c (newGatingId s) → IdChange cfg m s e s'

theorem Change.ids (h : Change cfg m s e s' effects) : IdChange cfg m s e s' := by
  cases h with
  | quiet hpending hactive _ _ _ haccepted _ _ _ =>
    refine .same (by simp [State.idAt, hpending, hactive]) fun payload hpayload hecf => ?_
    obtain ⟨hconsent, hrest⟩ := haccepted payload hpayload
    rcases hrest with hno | hfull
    · simp [hecf hconsent] at hno
    · exact .inl hfull
  | @ask _ payload i expiry jtiCache _ haccepted _ hecf hi _ =>
    refine .filled (.inl i) payload haccepted (fun _ => hecf) (State.pendingSlot_some hi) ?_
    rw [State.idAt_setExpiryTicker]
    exact State.idAt_setPending { s with jtiCache } i _
  | grant haccepted hconsent hwrite =>
    rcases writeToActiveList_cells hwrite with ⟨hfull, rfl⟩ | ⟨j, hj, hids, -⟩
    · exact .same rfl fun _ _ _ => .inr hfull
    · exact .filled (.inr j) _ haccepted (fun h => by simp [hconsent] at h) hj hids
  | @refuse _ _ i _ hinquiry _ _ =>
    exact .freed (.inl i) (accepted_of_namedId (namedId_inquiry hinquiry))
      (State.idAt_setPending s i _)
  | @yield _ g i _ _ hinquiry hi _ _ hwrite =>
    have hnone : accepted cfg m s e = none := accepted_of_namedId (namedId_inquiry hinquiry)
    have hremoved : (removeFromPendingList s i).idAt = Function.update s.idAt (.inl i) (-1) :=
      State.idAt_setPending s i _
    rcases writeToActiveList_cells hwrite with ⟨-, rfl⟩ | ⟨j, hj, hids, -⟩
    · exact .freed (.inl i) hnone hremoved
    · rw [hremoved] at hj hids
      refine .moved (.inl i) (.inr j) hnone hj ?_
      rw [hids, State.idAt_inl, State.pendingSlot_some hi]
  | @reply _ g i consent _ hreply hi _ =>
    refine .same ?_ fun payload hpayload => ?_
    · exact (State.idAt_setPending s i _).trans (Function.update_eq_self (.inl i) s.idAt)
    · simp [accepted_of_namedId (namedId_reply hreply)] at hpayload
  | @cancelPending _ _ i _ hcancel _ =>
    exact .freed (.inl i) (accepted_of_namedId (namedId_cancel hcancel))
      (State.idAt_setPending s i _)
  | @cancelActive _ _ i _ _ hcancel _ _ _ =>
    exact .freed (.inr i) (accepted_of_namedId (namedId_cancel hcancel))
      (State.idAt_setActive s i _)
  | @purgePending i _ _ _ _ =>
    refine .freed (.inl i) rfl ?_
    rw [State.idAt_setExpiryTicker]
    exact State.idAt_setPending s i _
  | @purgeActive i _ _ _ _ =>
    refine .freed (.inr i) rfl ?_
    rw [State.idAt_setExpiryTicker]
    exact State.idAt_setActive s i _

/-- The variable GatingId is never written. -/
theorem Change.gatingId (h : Change cfg m s e s' effects) : s'.gatingId = s.gatingId := by
  cases h with
  | quiet _ _ hid _ _ _ _ _ _ => exact hid
  | ask _ _ _ _ _ => simp
  | grant _ _ hwrite =>
    have hid := writeToActiveList_gatingId hwrite
    exact hid
  | refuse _ _ _ => rfl
  | yield _ _ _ _ hwrite =>
    have hid := writeToActiveList_gatingId hwrite
    exact hid
  | reply _ _ _ => rfl
  | cancelPending _ _ => rfl
  | cancelActive _ _ _ _ => rfl
  | purgePending _ _ _ => simp [removeFromPendingList]
  | purgeActive _ _ _ => simp [removeFromActiveList]

/-- The ids in use stay those that newGatingId gives. -/
theorem Change.sameId (h : Change cfg m s e s' effects) (hsame : s.SameId) : s'.SameId := by
  have hnew : newGatingId s' = newGatingId s := by rw [newGatingId, newGatingId, h.gatingId]
  have hupdate : ∀ {key : Cell → ℤ} (c : Cell) {k : ℤ}, (k = -1 ∨ k = newGatingId s) →
      (∀ d, key d = -1 ∨ key d = newGatingId s) →
      ∀ d, Function.update key c k d = -1 ∨ Function.update key c k d = newGatingId s :=
    fun {key} c k hk hkey => (Function.forall_update_iff key
      (p := fun _ k => k = -1 ∨ k = newGatingId s)).mpr ⟨hk, fun d _ => hkey d⟩
  unfold State.SameId
  rw [hnew]
  cases h.ids with
  | same hids _ => rwa [hids]
  | freed c _ hids =>
    rw [hids]
    exact hupdate c (.inl rfl) hsame
  | moved c d _ _ hids =>
    rw [hids]
    exact hupdate d (hsame c) (hupdate c (.inl rfl) hsame)
  | filled c payload _ _ _ hids =>
    rw [hids]
    exact hupdate c (.inr rfl) hsame

/-- The ids stay unique exactly when no accepted at-request meets a live entry. -/
theorem Change.unique_iff (h : Change cfg m s e s' effects) (hunique : s.UniqueIds)
    (hsame : s.SameId) :
    s'.UniqueIds ↔ ∀ payload, accepted cfg m s e = some payload →
      (checkifConsent cfg payload.purpose → s.ecfAvailable) → s.Vacant := by
  obtain ⟨hpending, hactive⟩ := State.exists_free hunique hsame
  unfold State.UniqueIds at hunique ⊢
  cases h.ids with
  | same hids hfull =>
    rw [hids]
    refine iff_of_true hunique fun payload hpayload hecf => ?_
    rcases hfull payload hpayload hecf with h | h
    · exact absurd h hpending
    · exact absurd h hactive
  | freed c hnone hids =>
    rw [hids]
    exact iff_of_true (hunique.update_free c) (by simp [hnone])
  | moved c d hnone hd hids =>
    rw [hids]
    exact iff_of_true (hunique.move hd) (by simp [hnone])
  | filled c payload hpayload hecf hc hids =>
    rw [hids, Tables.unique_update_iff hc State.newGatingId_ne]
    have hvacant : (∀ d, s.idAt d ≠ newGatingId s) ↔ s.Vacant := by
      rw [State.vacant_iff]
      refine forall_congr' fun d => ⟨(hsame d).resolve_right, fun hd => ?_⟩
      rw [hd]
      exact State.newGatingId_ne.symm
    rw [hvacant]
    simp only [hunique, true_and, hpayload, Option.some.injEq, forall_eq']
    exact ⟨fun h _ => h, fun h => h hecf⟩

/-- A purge changes one entry and sends its id. -/
theorem Change.purgesOne (h : Change cfg m s .expiryTick s' effects) {c : Cell}
    (hc : s'.content c ≠ s.content c) :
    (∀ d, s'.content d ≠ s.content d → d = c) ∧
      ∀ id, .cancel id ∈ effects → id = itoa (s.idAt c) := by
  cases h with
  | quiet hpending hactive _ _ _ _ _ _ _ => simp [State.content, hpending, hactive] at hc
  | purgePending _ _ _ =>
    rw [State.content_setExpiryTicker] at hc ⊢
    obtain rfl := content_removeFromPendingList hc
    exact ⟨fun d => content_removeFromPendingList, by simp⟩
  | purgeActive _ _ _ =>
    rw [State.content_setExpiryTicker] at hc ⊢
    obtain rfl := content_removeFromActiveList hc
    exact ⟨fun d => content_removeFromActiveList, by simp⟩
  | ask haccepted _ _ _ _ => simp [accepted] at haccepted
  | grant haccepted _ _ => simp [accepted] at haccepted
  | refuse hinquiry _ _ => simp [inquiryId] at hinquiry
  | yield hinquiry _ _ _ _ => simp [inquiryId] at hinquiry
  | reply hreply _ _ => simp [replyId] at hreply
  | cancelPending hcancel _ => simp [cancelId] at hcancel
  | cancelActive hcancel _ _ _ => simp [cancelId] at hcancel

end

section

variable {cfg : Config} {past : ServerHistory} {x : ServerMove}

/-- A message keeps to the entry it names exactly when it does not name the id -1. -/
theorem touchesNamed_iff (hx : x.Of (serverStep cfg)) (hunique : x.before.UniqueIds)
    (hsame : x.before.SameId) : TouchesNamed x ↔ namedId x.event.2 ≠ some (-1) := by
  constructor
  · intro htouches hminus
    obtain ⟨c, hc⟩ := scanned_minus_one hminus (State.exists_free hunique hsame).1
    exact (htouches (-1) hminus c (.inl hc)).1 rfl
  · intro hne g hg c hc
    refine ⟨fun hminus => hne (hminus ▸ hg), ?_⟩
    rcases hc with hscan | hchange
    · exact .inl (idAt_of_scanned hg hscan)
    · exact (change_of_move hx).named hg hchange

theorem idsKept_iff (hinv : x.before.UniqueIds ∧ x.before.SameId)
    (hx : x.Of (serverStep cfg)) : IdsKept past x ↔ OneSession cfg past x := by
  have hchange := change_of_move hx
  have hpurges : PurgesOne x := by
    intro hevent c hc
    rw [hevent] at hchange
    exact hchange.purgesOne hc
  simp only [IdsKept, OneSession, hinv.1, hpurges, true_and, and_true,
    hchange.unique_iff hinv.1 hinv.2, touchesNamed_iff hx hinv.1 hinv.2, Option.mem_def]

end

/-- In every run, the ids of live entries are unique and each message keeps to the entry
it names exactly when each at-request that passes the checks finds both lists without a
live entry and no message names the id -1. -/
theorem gating_ids_unique_iff {cfg : Config} {h : ServerHistory} {s : State}
    (hrun : ServerRun cfg h s) : Always IdsKept h ↔ Always (OneSession cfg) h := by
  refine hrun.always_iff (I := fun _ s => s.UniqueIds ∧ s.SameId) ?_
    (fun _ _ => idsKept_iff) fun _ x hinv hx hkept => ⟨hkept.2.1, ?_⟩
  · rintro s ⟨seed, now, rfl⟩
    have hfree : ∀ c, (State.initial seed now).idAt c = -1 := by
      rintro (i | i) <;> rfl
    exact ⟨Tables.unique_of_free hfree, fun c => .inl (hfree c)⟩
  · exact (change_of_move hx).sameId hinv.2

/-- One session from its at-request to the cancel of its token. -/
theorem gating_ids_unique_one_session : ∃ h s, ServerRun (sampleConfig true) h s ∧
    h.length = 5 ∧ Always IdsKept h := by
  obtain ⟨h, s, hrun, hlength, hone⟩ := exists_serverRun (sampleConfig true)
    ([.ecf (str "internal-ecfAvailable"), .client sampleRequest,
      .ecf (str "\x7b\"action\":\"consent-reply\",\"messageId\":\"667\",\"consent\":\"YES\"\x7d"),
      .client (str "\x7b\"action\":\"at-inquiry\",\"sessionId\":\"667\"\x7d"),
      .ecf (str "\x7b\"action\":\"consent-cancel\",\"messageId\":\"667\"\x7d")].map
        fun e => (sampleMoment, e))
    (fun h => h.length = 5 ∧ Always (OneSession (sampleConfig true)) h)
    (by decide +kernel)
  exact ⟨h, s, hrun, hlength, (gating_ids_unique_iff hrun).mpr hone⟩

/-- Two at-requests that wait for consent get the same gating id. -/
theorem gating_ids_repeated :
    ¬ ∀ cfg h s, ServerRun cfg h s → s.UniqueIds := by
  intro hall
  obtain ⟨h, s, hrun, hids⟩ := exists_serverRun (sampleConfig true)
    ([.ecf (str "internal-ecfAvailable"), .client sampleRequest,
      .client sampleRequest].map fun e => (sampleMoment, e))
    (fun h => ∃ x ∈ h.head?, (x.after.pendingList 0).gatingId = 667 ∧
      (x.after.pendingList 1).gatingId = 667)
    (by decide +kernel)
  cases hrun with
  | start _ => simp at hids
  | @next h x hrun hx =>
    simp only [List.head?_cons, Option.mem_def, Option.some.injEq, exists_eq_left'] at hids
    obtain ⟨hzero, hone⟩ := hids
    have heq := hall _ _ _ (hrun.next hx) (.inl 0) (.inl 1) (by simp [hzero]) (by simp [hzero, hone])
    exact absurd (Sum.inl.inj heq) (by decide)

end VissServer.AtServer
