import VissServer.ServiceMgr.Killing
import VissServer.ServiceMgr.Subscribing

/-!
The subscription list over a run: its ids are distinct and below the next id, and an
unsubscribe request takes the entry with its id out of the list, unless the entry logs
curves or the ticker of its interval is missing.
-/
namespace VissServer.ServiceMgr

open Go Utils Runs

/-- The ids in the list are pairwise distinct and below the next one. -/
def Numbering (s : State) : Prop :=
  DistinctIds s ∧ ∀ e ∈ s.subscriptionList, e.subscriptionId < s.subscriptionId

/-- An interval, range or change subscription. -/
def isSampled (e : SubscriptionState) : Bool :=
  isTimebased e || getOpType e.filterList (str "range") || getOpType e.filterList (str "change")

/-- The subscription id of an unsubscribe request. -/
def unsubscribedId : Event → Option ℤ
  | .request request =>
      if actionOf (requestMapOf request) = .unsubscribe then
        (asString (valueAt (requestMapOf request) (str "subscriptionId"))).map atoiIgnoringError
      else none
  | _ => none

abbrev ServiceMove := Move Service (Moment × Event) Output

/-- An unsubscribe of an interval, range or change subscription removes its entry and
nothing else. -/
def UnsubscribesExactly (y : ServiceMove) : Prop :=
  ∀ e ∈ y.before.mgr.subscriptionList, isSampled e = true →
    unsubscribedId y.event.2 = some e.subscriptionId →
      y.after.Alive ∧ e ::ₘ entries y.after.mgr = entries y.before.mgr
  deriving Decidable

/-- The entry does not log curves, and the ticker of an interval can be stopped. -/
def Unsubscribable (s : State) (e : SubscriptionState) : Prop :=
  isCurveLog e = false ∧ (isTimebased e → HasTicker s e.subscriptionId)

/-- The interval, range or change subscription that a pass unsubscribes can be removed. -/
def UnsubscribesRemovable (y : ServiceMove) : Prop :=
  ∀ e ∈ y.before.mgr.subscriptionList, isSampled e = true →
    unsubscribedId y.event.2 = some e.subscriptionId → Unsubscribable y.before.mgr e

section

variable {cfg : Config} {m : Moment} {s s' : State}

theorem Fresh.numbering (hs : Fresh s) : Numbering s := ⟨hs.nodup, hs.entries⟩

/-- The deactivation of an entry changes the list by this entry alone exactly where the
entry is no curve logging entry. -/
theorem deactivateEntry_removes_iff {index : ℕ} {e : SubscriptionState}
    (hget : s.subscriptionList[index]? = some e) (h : deactivateEntry s index e = some s') :
    e ::ₘ entries s' = entries s ↔ isCurveLog e = false := by
  have hlist := (deactivateEntry_some hget h).1
  cases hcurve : isCurveLog e with
  | true =>
    rw [if_pos (by simpa [isCurveLog] using hcurve)] at hlist
    have hsame : entries s' = entries s := entries_of_perm (List.Perm.of_eq hlist)
    rw [hsame]
    constructor
    · intro hcons
      have hcard := congrArg Multiset.card hcons
      rw [Multiset.card_cons] at hcard
      omega
    · intro hfalse
      simp at hfalse
  | false =>
    rw [if_neg (by simpa [isCurveLog] using hcurve)] at hlist
    exact iff_of_true (Multiset.coe_eq_coe.mpr hlist) rfl

/-- The handling of an unsubscribe request for an entry in the list is the deactivation of
the entry. -/
theorem unsubscribeRequest_entry {requestMap : GoMap Json} {id : GoString}
    {e : SubscriptionState} (hs : DistinctIds s) (he : e ∈ s.subscriptionList)
    (hid : asString (valueAt requestMap (str "subscriptionId")) = some id)
    (heq : atoiIgnoringError id = e.subscriptionId) :
    ∃ index answer, s.subscriptionList[index]? = some e ∧
      unsubscribeRequest m s requestMap =
        (deactivateEntry s index e).map fun s' => (s', answer) := by
  obtain ⟨index, hget, hdeactivate⟩ := deactivateSubscriptionId_mem hs he
  refine ⟨index, finalizeMessage ((responseMapOf m requestMap).set (str "subscriptionId")
    (.str id)), hget, ?_⟩
  rw [unsubscribeRequest, hid]
  simp only [deactivateSubscription, heq, hdeactivate]
  cases deactivateEntry s index e <;> rfl

/-- A request that is handled comes back with the state, a panic ends the process. -/
theorem alive_of_back {y : ServiceMove} {request : GoString}
    (hy : y.Of (serviceStep cfg)) (hevent : y.event.2 = .request request) :
    (y.after.Alive ∧ (handleRequest cfg y.event.1 y.before.mgr request).ending =
        .back y.after.mgr) ∨
      (¬ y.after.Alive ∧ ∀ s', (handleRequest cfg y.event.1 y.before.mgr request).ending ≠
        .back s') := by
  obtain ⟨before, ⟨m, event⟩, after, output⟩ := y
  dsimp only at hevent
  subst hevent
  unfold Move.Of at hy
  simp only [serviceStep] at hy
  split at hy
  · simp at hy
  · have hafter := (congrArg Prod.fst (Option.some.inj hy)).symm
    dsimp only at hafter ⊢
    rw [hafter, requestStep]
    cases hending : (handleRequest cfg m before.mgr request).ending with
    | back s' => exact .inl ⟨statusAfter_alive _ _, rfl⟩
    | panic => exact .inr ⟨fun halive => halive.1 rfl, by simp⟩
    | hang => exact .inr ⟨fun halive => halive.2 rfl, by simp⟩

/-- One pass of the loop: the entry goes out of the list exactly where it can be removed. -/
theorem unsubscribesExactly_iff {y : ServiceMove} (hs : Fresh y.before.mgr)
    (hy : y.Of (serviceStep cfg)) : UnsubscribesExactly y ↔ UnsubscribesRemovable y := by
  unfold UnsubscribesExactly UnsubscribesRemovable
  refine forall₂_congr fun e he => imp_congr_right fun _ => ?_
  refine imp_congr_right fun hunsubscribed => ?_
  obtain ⟨before, ⟨m, event⟩, after, output⟩ := y
  dsimp only at hs he hunsubscribed ⊢
  unfold unsubscribedId at hunsubscribed
  split at hunsubscribed
  · next request =>
    split at hunsubscribed
    · next haction =>
      obtain ⟨id, hid, heq⟩ := Option.map_eq_some_iff.mp hunsubscribed
      obtain ⟨index, answer, hget, hhandled⟩ :=
        unsubscribeRequest_entry (m := m) hs.nodup he hid heq
      have hrequest : handleRequest cfg m before.mgr request =
          .once ((deactivateEntry before.mgr index e).map fun s' => (s', answer)) := by
        rw [handleRequest, haction, hhandled]
      have hsome := deactivateEntry_isSome before.mgr index e
      have hending := alive_of_back hy rfl
      dsimp only at hending
      rw [hrequest] at hending
      cases hentry : deactivateEntry before.mgr index e with
      | none =>
        rw [hentry] at hending hsome
        simp only [Option.map_none, Handled.once] at hending
        rcases hending with ⟨-, hback⟩ | ⟨hdead, -⟩
        · simp at hback
        · refine iff_of_false (fun h => hdead h.1) (fun h => ?_)
          exact absurd (hsome.mpr h.2) (by simp)
      | some s' =>
        rw [hentry] at hending hsome
        simp only [Option.map_some, Handled.once] at hending
        rcases hending with ⟨halive, hback⟩ | ⟨-, hdead⟩
        · obtain rfl := Ending.back.inj hback
          rw [deactivateEntry_removes_iff hget hentry]
          constructor
          · intro h
            exact ⟨h.2, hsome.mp rfl⟩
          · intro h
            exact ⟨halive, h.1⟩
        · exact absurd rfl (hdead s')
    · simp at hunsubscribed
  · simp at hunsubscribed

end

/-- In every run the ids are distinct and below the next one, and the unsubscribe requests
remove exactly the entries they name if and only if these can be removed. -/
theorem unsubscribe_exactly_iff {cfg : Config} {h : ServiceHistory} {x : Service}
    (hrun : ServiceRun cfg h x) :
    Numbering x.mgr ∧ (Always (fun _ y => UnsubscribesExactly y) h ↔
      Always (fun _ y => UnsubscribesRemovable y) h) := by
  refine ⟨hrun.fresh.numbering, ?_⟩
  refine hrun.always_iff (I := fun _ x => Fresh x.mgr) ?_ ?_ ?_
  · intro x hx
    rw [hx]
    exact fresh_initialState
  · intro h y hs hy
    exact unsubscribesExactly_iff hs hy
  · intro h y hs hy _
    rcases serviceStep_mgr hy with heq | ⟨request, -, heffect⟩ | ⟨messages, htrigger⟩
    · exact heq ▸ hs
    · exact hs.effect heffect
    · exact hs.trigger htrigger

/-- The unsubscribe request of the session 1?0 for its first subscription. -/
def unsubscribeRequestText : GoString :=
  str "\x7b\"RouterId\":\"1?0\",\"action\":\"unsubscribe\",\"subscriptionId\":\"1\"\x7d"

/-- An interval subscription is made and removed. -/
theorem unsubscribe_interval : ∃ h x, ServiceRun sampleConfig h x ∧ h.length = 2 ∧
    Always (fun _ y => UnsubscribesRemovable y) h := by
  obtain ⟨h, x, hrun, hlength, hexactly⟩ := exists_serviceRun sampleConfig
    [(sampleMoment, .request (intervalRequest "1000")),
      (sampleMoment, .request unsubscribeRequestText)]
    (fun h => h.length = 2 ∧ Always (fun _ y => UnsubscribesExactly y) h) (by decide +kernel)
  exact ⟨h, x, hrun, hlength, (unsubscribe_exactly_iff hrun).2.mp hexactly⟩

/-- The unsubscribe request for a subscription with the period 0 ends the process. -/
theorem unsubscribe_without_ticker : ¬ ∀ cfg h x, ServiceRun cfg h x →
    Numbering x.mgr ∧ Always (fun _ y => UnsubscribesExactly y) h := by
  intro hall
  obtain ⟨h, x, hrun, hbad⟩ := exists_serviceRun sampleConfig
    [(sampleMoment, .request (intervalRequest "0")),
      (sampleMoment, .request unsubscribeRequestText)]
    (fun h => ¬ Always (fun _ y => UnsubscribesExactly y) h) (by decide +kernel)
  exact hbad (hall sampleConfig h x hrun).2

end VissServer.ServiceMgr
