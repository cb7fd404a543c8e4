import Mathlib.Algebra.Order.Group.Multiset
import VissServer.ServiceMgr.Unsubscribing
import VissServer.Utils.ErrorMessages

/-!
The cancel of a gating id: the lookup is by gating id, the removal by the router id that
was found, so that the right entry goes only where it is the first of its session.
-/
namespace VissServer.ServiceMgr

open Go Utils

/-- The message is made from a map with the router id and the subscription id of the entry. -/
def NamesEntry (answer : GoString) (e : SubscriptionState) : Prop :=
  ∃ responseMap : GoMap Json, answer = finalizeMessage responseMap ∧
    valueAt responseMap (str "RouterId") = .str e.routerId ∧
    valueAt responseMap (str "subscriptionId") = .str (itoa e.subscriptionId)

/-- The entries with the gating id are removed and no others; a notification is sent where
there is one, and names a removed entry. -/
def CancelsExactly (s : State) (gatingId : GoString) (handled : Handled) : Prop :=
  (∃ s', handled.ending = .back s' ∧
    entries s' = (entries s).filter fun e => e.gatingId ≠ gatingId) ∧
  ((∃ e ∈ s.subscriptionList, e.gatingId = gatingId) → handled.answers ≠ []) ∧
  ∀ answer ∈ handled.answers, ∃ e ∈ s.subscriptionList,
    e.gatingId = gatingId ∧ NamesEntry answer e

/-- No entry has the gating id, or a single one that is the first of its session and of its
id, has a router id and can be removed. -/
def Cancellable (s : State) (gatingId : GoString) : Prop :=
  (∀ e ∈ s.subscriptionList, e.gatingId ≠ gatingId) ∨
  ∃ e, s.subscriptionList.filter (fun e' => e'.gatingId = gatingId) = [e] ∧ e.routerId ≠ [] ∧
    s.subscriptionList.find? (fun e' => e'.routerId = e.routerId) = some e ∧
    s.subscriptionList.find? (fun e' => e'.subscriptionId = e.subscriptionId) = some e ∧
    Unsubscribable s e

/-- Two scans that both accept what the other one finds find the same. -/
theorem find?_unique {α : Type} {p q : α → Bool} {l : List α} {a b : α}
    (ha : l.find? p = some a) (hb : l.find? q = some b) (hpb : p b = true) (hqa : q a = true) :
    a = b := by
  induction l with
  | nil => simp at ha
  | cons x l ih =>
    by_cases hp : p x = true
    · rw [List.find?_cons_of_pos hp, Option.some.injEq] at ha
      subst ha
      rw [List.find?_cons_of_pos hqa, Option.some.injEq] at hb
      exact hb
    · rw [List.find?_cons_of_neg hp] at ha
      by_cases hq : q x = true
      · rw [List.find?_cons_of_pos hq, Option.some.injEq] at hb
        subst hb
        exact absurd hpb hp
      · rw [List.find?_cons_of_neg hq] at hb
        exact ih ha hb

section

variable {cfg : Config} {m : Moment} {s s' : State} {gatingId : GoString}

/-- One entry is taken out, and exactly those without the gating id stay, where it is the
only entry with the gating id. -/
theorem filter_eq_singleton_iff {e : SubscriptionState} (h : e ::ₘ entries s' = entries s) :
    entries s' = (entries s).filter (fun e => e.gatingId ≠ gatingId) ↔
      s.subscriptionList.filter (fun e => e.gatingId = gatingId) = [e] := by
  have hsplit := Multiset.filter_add_not (fun e : SubscriptionState => e.gatingId = gatingId)
    (entries s)
  have hlist : s.subscriptionList.filter (fun e => e.gatingId = gatingId) = [e] ↔
      (entries s).filter (fun e => e.gatingId = gatingId) = {e} := by
    rw [entries, Multiset.filter_coe, ← Multiset.coe_singleton, Multiset.coe_eq_coe,
      List.perm_singleton]
  rw [hlist]
  constructor
  · intro hs'
    have hsum : (entries s).filter (fun e => e.gatingId = gatingId) + entries s' =
        {e} + entries s' := by
      rw [Multiset.singleton_add, h, hs']
      exact hsplit
    exact add_right_cancel hsum
  · intro hone
    rw [hone, ← h, Multiset.singleton_add] at hsplit
    have hrest := (Multiset.cons_inj_right e).mp hsplit
    rw [← hrest, h]

/-- The members of the request that the error response repeats. -/
theorem namesEntry_errorAnswer (requestMap : GoMap Json) (e : SubscriptionState) :
    NamesEntry (errorAnswer m s
      ((((requestMap.set (str "RouterId") (.str e.routerId)).set (str "action")
        (.str (str "subscription"))).set (str "requestId") .null).set (str "subscriptionId")
          (.str (itoa e.subscriptionId))) 2
      (str "Token expired or consent cancelled.")).2 e := by
  refine ⟨_, rfl, ?_, ?_⟩
  · have hrouter : str "RouterId" ∈ keptMembers := by decide
    have hne : ∀ k ∈ [str "subscriptionId", str "requestId", str "action", str "ts", str "error"],
        str "RouterId" ≠ k := by decide
    simp only [List.forall_mem_cons] at hne
    obtain ⟨hne₁, hne₂, hne₃, hne₄, hne₅, -⟩ := hne
    rw [valueAt_setErrorResponse, if_neg (by simp [hne₄, hne₅])]
    simp only [valueAt_set, if_neg hne₁, if_neg hne₂, if_neg hne₃, if_true]
    simp [hrouter, isNull]
  · have hsubscription : str "subscriptionId" ∈ keptMembers := by decide
    have hne : ∀ k ∈ [str "ts", str "error"], str "subscriptionId" ≠ k := by decide
    simp only [List.forall_mem_cons] at hne
    obtain ⟨hne₁, hne₂, -⟩ := hne
    rw [valueAt_setErrorResponse, if_neg (by simp [hne₁, hne₂])]
    simp only [valueAt_set, if_true]
    simp [hsubscription, isNull]

/-- The ticker of an interval does not depend on the map of error responses. -/
theorem unsubscribable_errorResponseMap (errorResponseMap : GoMap Json) (e : SubscriptionState) :
    Unsubscribable { s with errorResponseMap } e ↔ Unsubscribable s e :=
  and_congr_right fun _ => imp_congr_right fun _ => HasTicker.congr rfl rfl

/-- The removal of the first entry of a session, by the entry that has its id. -/
theorem scanAndRemoveListItem_entry {routerId : GoString} {e : SubscriptionState}
    (hfind : s.subscriptionList.find? (fun e => e.routerId = routerId) = some e) :
    ∃ index e', s.subscriptionList[index]? = some e' ∧
      s.subscriptionList.find? (fun e' => e'.subscriptionId = e.subscriptionId) = some e' ∧
      scanAndRemoveListItem s routerId =
        (deactivateEntry s index e').map fun s' => (true, s') := by
  rcases deactivateSubscriptionId_cases s e.subscriptionId with
    ⟨hnone, -⟩ | ⟨index, e', hget, -, hid, heq⟩
  · have hself := List.find?_eq_none.mp hnone e (List.mem_of_find?_eq_some hfind)
    simp at hself
  · refine ⟨index, e', hget, hid, ?_⟩
    rw [scanAndRemoveListItem, hfind]
    dsimp only
    rw [heq]
    cases deactivateEntry s index e' <;> rfl

theorem cancelSubscription_exactly {requestMap : GoMap Json}
    (hgating : asString (valueAt requestMap (str "gatingId")) = some gatingId) :
    CancelsExactly s gatingId (cancelSubscription m s requestMap) ↔ Cancellable s gatingId := by
  unfold cancelSubscription
  rw [hgating]
  dsimp only
  cases hfind : s.subscriptionList.find? fun e => e.gatingId = gatingId with
  | none =>
    have hnone : ∀ e ∈ s.subscriptionList, e.gatingId ≠ gatingId := by
      intro e he
      simpa using List.find?_eq_none.mp hfind e he
    simp only [getSubscriptionData, hfind, if_true]
    refine iff_of_true ⟨⟨s, rfl, ?_⟩, ?_, by simp⟩ (.inl hnone)
    · exact (Multiset.filter_eq_self.mpr fun e he => hnone e (Multiset.mem_coe.mp he)).symm
    · intro h
      obtain ⟨e, he, hid⟩ := h
      exact absurd hid (hnone e he)
  | some e₁ =>
    have hmem : e₁ ∈ s.subscriptionList := List.mem_of_find?_eq_some hfind
    have hid : e₁.gatingId = gatingId := by simpa using List.find?_some hfind
    -- the entry that a cancellable state has for the gating id is the one that is found
    have hone : Cancellable s gatingId ↔
        s.subscriptionList.filter (fun e' => e'.gatingId = gatingId) = [e₁] ∧ e₁.routerId ≠ [] ∧
        s.subscriptionList.find? (fun e' => e'.routerId = e₁.routerId) = some e₁ ∧
        s.subscriptionList.find? (fun e' => e'.subscriptionId = e₁.subscriptionId) = some e₁ ∧
        Unsubscribable s e₁ := by
      constructor
      · intro h
        rcases h with hnone | ⟨e, hfilter, hrest⟩
        · exact absurd hid (hnone e₁ hmem)
        · have he₁ : e₁ ∈ [e] := by
            rw [← hfilter, List.mem_filter]
            exact ⟨hmem, by simpa using hid⟩
          rw [List.mem_singleton.mp he₁]
          exact ⟨hfilter, hrest⟩
      · intro h
        exact .inr ⟨e₁, h⟩
    rw [hone]
    simp only [getSubscriptionData, hfind]
    split
    · next hempty =>
      refine iff_of_false (fun h => ?_) (fun h => h.2.1 hempty)
      exact h.2.1 ⟨e₁, hmem, hid⟩ rfl
    · next hrouter =>
      obtain ⟨e₂, hfirst⟩ : ∃ e₂,
          s.subscriptionList.find? (fun e => e.routerId = e₁.routerId) = some e₂ := by
        refine Option.isSome_iff_exists.mp (List.find?_isSome.mpr ⟨e₁, hmem, ?_⟩)
        simp
      have hnames := namesEntry_errorAnswer (m := m) (s := s) requestMap e₁
      generalize hanswer : errorAnswer m s _ 2 _ = answer at hnames ⊢
      obtain ⟨s₁, answer⟩ := answer
      obtain ⟨M, rfl⟩ : ∃ M, s₁ = { s with errorResponseMap := M } :=
        ⟨_, (congrArg Prod.fst hanswer).symm⟩
      obtain ⟨index, e₃, hget, hfound, hscan⟩ :=
        scanAndRemoveListItem_entry (s := { s with errorResponseMap := M }) hfirst
      have hsome := deactivateEntry_isSome { s with errorResponseMap := M } index e₃
      rw [hscan]
      dsimp only at hget hfound hnames ⊢
      cases hentry : deactivateEntry { s with errorResponseMap := M } index e₃ with
      | none =>
        rw [hentry] at hsome
        refine iff_of_false (fun h => ?_) (fun h => ?_)
        · obtain ⟨⟨s', hback, -⟩, -⟩ := h
          simp at hback
        · obtain ⟨-, -, hrouter₁, hid₁, hremovable⟩ := h
          have he₂ : e₁ = e₂ := Option.some.inj (hrouter₁.symm.trans hfirst)
          rw [← he₂] at hfound
          have he₃ : e₁ = e₃ := Option.some.inj (hid₁.symm.trans hfound)
          subst he₃
          have hstop := ((unsubscribable_errorResponseMap M e₁).mpr hremovable).2
          exact absurd (hsome.mpr hstop) (by simp)
      | some s₂ =>
        rw [hentry] at hsome
        have hremoves :=
          deactivateEntry_removes_iff (s := { s with errorResponseMap := M }) hget hentry
        have hanswers : ((∃ e ∈ s.subscriptionList, e.gatingId = gatingId) →
            [answer] ≠ []) ∧ ∀ a ∈ [answer], ∃ e ∈ s.subscriptionList,
              e.gatingId = gatingId ∧ NamesEntry a e := by
          refine ⟨fun _ => List.cons_ne_nil _ _, fun a ha => ?_⟩
          rw [List.mem_singleton.mp ha]
          exact ⟨e₁, hmem, hid, hnames⟩
        constructor
        · intro h
          obtain ⟨⟨s', hback, hentries⟩, -⟩ := h
          obtain rfl := Ending.back.inj hback
          have hplain : isCurveLog e₃ = false := by
            by_contra hcurve
            have hlist := (deactivateEntry_some (s := { s with errorResponseMap := M }) hget hentry).1
            rw [if_pos (by simpa [isCurveLog] using hcurve)] at hlist
            have hsame : entries s₂ = entries s := entries_of_perm (List.Perm.of_eq hlist)
            have hgone : e₁ ∈ entries s₂ := hsame ▸ Multiset.mem_coe.mpr hmem
            rw [hentries, Multiset.mem_filter] at hgone
            exact hgone.2 hid
          have hfilter := (filter_eq_singleton_iff (hremoves.mpr hplain)).mp hentries
          have he₃ : e₁ ∈ [e₃] := by
            rw [← hfilter, List.mem_filter]
            exact ⟨hmem, by simpa using hid⟩
          rw [← List.mem_singleton.mp he₃] at hplain hfilter hfound hsome
          have he₂ : e₂ = e₁ := find?_unique hfirst hfound (by simp) (by simp)
          rw [he₂] at hfirst hfound
          refine ⟨hfilter, hrouter, hfirst, hfound, ?_⟩
          exact (unsubscribable_errorResponseMap M e₁).mp ⟨hplain, hsome.mp rfl⟩
        · intro h
          obtain ⟨hfilter, -, hrouter₁, hid₁, hplain, -⟩ := h
          have he₂ : e₁ = e₂ := Option.some.inj (hrouter₁.symm.trans hfirst)
          rw [← he₂] at hfound
          have he₃ : e₁ = e₃ := Option.some.inj (hid₁.symm.trans hfound)
          subst he₃
          exact ⟨⟨s₂, rfl, (filter_eq_singleton_iff (hremoves.mpr hplain)).mpr hfilter⟩, hanswers⟩

end

/-- A cancel removes the entries with its gating id, and only these, if and only if there is
none, or a single one that is the first of its session and can be removed. -/
theorem cancel_exactly_iff (cfg : Config) (m : Moment) (s : State)
    {request gatingId : GoString}
    (haction : actionOf (requestMapOf request) = .cancelSubscription)
    (hgating : valueAt (requestMapOf request) (str "gatingId") = .str gatingId) :
    CancelsExactly s gatingId (handleRequest cfg m s request) ↔ Cancellable s gatingId := by
  rw [handleRequest, haction]
  exact cancelSubscription_exactly (asString_eq_some.mpr hgating)

/-- A cancel of the gating id 668. -/
def cancelRequest : GoString :=
  str "\x7b\"action\":\"internal-cancelsubscription\",\"gatingId\":\"668\"\x7d"

/-- A change subscription of the session 1?0 under the given gating id. -/
def gatedSubscription (id : ℤ) (gatingId : String) : SubscriptionState where
  subscriptionId := id
  routerId := str "1?0"
  path := [str "Vehicle.Speed"]
  filterList := [{ type := str "change" }]
  latestDataPoint := []
  gatingId := str gatingId

def gatedSubscriptions (l : List SubscriptionState) : State :=
  { initialState with subscriptionList := l, subscriptionId := 3 }

/-- The entry with the gating id is the first of its session. -/
theorem cancel_first_subscription :
    CancelsExactly (gatedSubscriptions [gatedSubscription 1 "668", gatedSubscription 2 "667"])
      (str "668") (handleRequest sampleConfig sampleMoment
        (gatedSubscriptions [gatedSubscription 1 "668", gatedSubscription 2 "667"])
        cancelRequest) := by
  refine (cancel_exactly_iff sampleConfig sampleMoment _ (by decide +kernel)
    (asString_eq_some.mp (by decide +kernel))).mpr ?_
  refine .inr ⟨gatedSubscription 1 "668", by decide, by decide, by decide, by decide, ?_⟩
  refine ⟨by decide, fun htimebased => ?_⟩
  have hchange : isTimebased (gatedSubscription 1 "668") = false := by decide
  rw [hchange] at htimebased
  simp at htimebased

/-- Another subscription of the session, under another gating id, is removed instead. -/
theorem cancel_other_subscription : ¬ ∀ cfg m s request gatingId,
    actionOf (requestMapOf request) = .cancelSubscription →
    valueAt (requestMapOf request) (str "gatingId") = .str gatingId →
    CancelsExactly s gatingId (handleRequest cfg m s request) := by
  intro hall
  have hgating : asString (valueAt (requestMapOf cancelRequest) (str "gatingId")) =
      some (str "668") := by decide +kernel
  have hexactly := hall sampleConfig sampleMoment
    (gatedSubscriptions [gatedSubscription 1 "667", gatedSubscription 2 "668"]) cancelRequest
    (str "668") (by decide +kernel) (asString_eq_some.mp hgating)
  rw [handleRequest, show actionOf (requestMapOf cancelRequest) = .cancelSubscription by
    decide +kernel] at hexactly
  rcases (cancelSubscription_exactly hgating).mp hexactly with hnone | ⟨e, hfilter, -, hfirst, -⟩
  · exact hnone (gatedSubscription 2 "668") (by decide) rfl
  · have he : [gatedSubscription 2 "668"] = [e] := Eq.trans (by decide) hfilter
    rw [← List.singleton_inj.mp he] at hfirst
    exact absurd hfirst (by decide)

end VissServer.ServiceMgr
