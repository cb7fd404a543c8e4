import VissServer.Core.Requests
import VissServer.Go.JsonMaps
import VissServer.ServiceMgr.Table

/-!
What the service manager decodes of a request that the core sends on: the action of the
request, and for the requests that remove subscriptions the members that name them.
-/
namespace VissServer.Core

open Go Utils ServiceMgr

/-- The members that the core may change in a request that it sends on. -/
def changedMembers : List GoString :=
  [str "origin", str "path", str "handle", str "gatingId"]

/-- A map that the core makes of a decoded request. -/
structure Sendable (requestMap requestMap' : GoMap Json) : Prop where
  printable : PrintableMap requestMap'
  same : ∀ k ∉ changedMembers, valueAt requestMap' k = valueAt requestMap k

theorem asString_congr {j j' : Json} (h : ∀ v, j = .str v ↔ j' = .str v) :
    asString j = asString j' := by
  cases hj : asString j with
  | none =>
    refine (asString_eq_none.mpr fun v hv => ?_).symm
    exact asString_eq_none.mp hj v ((h v).mpr hv)
  | some v => exact (asString_eq_some.mpr ((h v).mp (asString_eq_some.mp hj))).symm

/-- A string member of a decoded request, after the way of the map through its text. -/
theorem asString_finalizeMessage {request : GoString} {requestMap requestMap' : GoMap Json}
    (h : decodeMap request = some requestMap) (hprintable : PrintableMap requestMap')
    {k : GoString} (hk : k ≠ str "origin")
    (hsame : valueAt requestMap' k = valueAt requestMap k) :
    asString (valueAt (requestMapOf (finalizeMessage requestMap')) k) =
      asString (valueAt requestMap k) := by
  have hdelete : valueAt (requestMap'.delete (str "origin")) k = valueAt requestMap k := by
    rw [valueAt_delete, if_neg hk, hsame]
  have hsanitize : sanitize (valueAt (requestMap'.delete (str "origin")) k) =
      valueAt (requestMap'.delete (str "origin")) k := by
    rw [hdelete]
    exact decodeMap_sanitize h k
  obtain ⟨decoded, hdecode, -⟩ := (hprintable.delete (str "origin")).decode_marshal
  have hrequestMap : requestMapOf (finalizeMessage requestMap') = decoded := by
    rw [requestMapOf, mapRequest, finalizeMessage, hdecode, Option.getD_some]
  rw [hrequestMap]
  refine asString_congr fun v => ?_
  rw [(hprintable.delete (str "origin")).str_decode_marshal hdecode hsanitize v, hdelete]

theorem Sendable.textMember {request : GoString} {requestMap requestMap' : GoMap Json}
    (h : decodeMap request = some requestMap) (hsendable : Sendable requestMap requestMap')
    {k : GoString} (hk : k ∉ changedMembers) :
    textMember (requestMapOf (finalizeMessage requestMap')) k = textMember requestMap k := by
  have horigin : k ≠ str "origin" := by
    rintro rfl
    exact hk (by decide)
  rw [ServiceMgr.textMember, ServiceMgr.textMember,
    asString_finalizeMessage h hsendable.printable horigin (hsendable.same k hk)]

theorem validString_member {k : GoString} (hk : k ∈ changedMembers) : ValidString k := by
  have hplain : ∀ k ∈ changedMembers, k.all isPlain = true := by decide
  exact validString_of_isPlain (List.all_eq_true.mp (hplain k hk))

theorem Sendable.refl {request : GoString} {requestMap : GoMap Json}
    (h : decodeMap request = some requestMap) : Sendable requestMap requestMap :=
  ⟨decodeMap_printableMap h, fun _ _ => rfl⟩

theorem Sendable.set {requestMap requestMap' : GoMap Json} (h : Sendable requestMap requestMap')
    {k : GoString} (hk : k ∈ changedMembers) (v : GoString) :
    Sendable requestMap (requestMap'.set k (.str v)) where
  printable := h.printable.set (validString_member hk) trivial
  same k' hk' := by
    have hne : k' ≠ k := fun heq => hk' (heq ▸ hk)
    rw [valueAt_set, if_neg hne, h.same k' hk']

theorem Sendable.serviceMap {requestMap requestMap' : GoMap Json}
    (h : Sendable requestMap requestMap') (paths tokenHandle gatingId : GoString) :
    Sendable requestMap (serviceMap requestMap' paths tokenHandle gatingId) := by
  have hpath := h.set (show str "path" ∈ changedMembers by decide) paths
  unfold Core.serviceMap
  dsimp only
  split
  · split
    · exact hpath
    · exact hpath.set (by decide) _
  · split
    · exact hpath.set (by decide) _
    · exact (hpath.set (by decide) _).set (by decide) _

section

variable {cfg : Config} {m : Moment} {requestMap : GoMap Json} {action message : GoString}

/-- A request that is sent on holds the paths that were found for it. -/
theorem issueFound_service {found : Found}
    (h : issueFound m requestMap action found = some (.service message)) :
    ∃ paths tokenHandle gatingId, found.paths = some paths ∧
      message = finalizeMessage (serviceMap requestMap paths tokenHandle gatingId) := by
  simp only [issueFound, Option.bind_eq_bind, Option.bind_eq_some_iff] at h
  obtain ⟨paths, hpaths, h⟩ := h
  split at h
  · exact ⟨paths, [], [], hpaths, (Reply.service.inj (Option.some.inj h)).symm⟩
  · split at h
    · simp only [Option.bind_eq_some_iff] at h
      obtain ⟨⟨errorCode, tokenHandle, gatingId⟩, -, h⟩ := h
      dsimp only at h
      split at h
      · simp at h
      · exact ⟨paths, tokenHandle, gatingId, hpaths,
          (Reply.service.inj (Option.some.inj h)).symm⟩
    · simp at h

theorem issueSearch_service {searchPath : List GoString}
    (h : issueSearch cfg m requestMap action searchPath = some (.service message)) :
    Found.totalMatches (searchPath.map fun path => searchTree cfg path true true []) ≠ 0 ∧
    ∃ paths tokenHandle gatingId,
      Found.paths (searchPath.map fun path => searchTree cfg path true true []) = some paths ∧
      message = finalizeMessage (serviceMap requestMap paths tokenHandle gatingId) := by
  unfold issueSearch at h
  dsimp only at h
  split at h
  · simp at h
  · next hmatches =>
    refine ⟨hmatches, ?_⟩
    split at h
    · simp only [Option.bind_eq_bind, Option.bind_eq_some_iff] at h
      obtain ⟨nodeType, -, h⟩ := h
      split at h
      · simp at h
      · exact issueFound_service h
    · exact issueFound_service h

theorem staticMetadata_service {path : GoString} :
    staticMetadata cfg m requestMap path ≠ some (.service message) := by
  intro h
  simp only [staticMetadata, Option.bind_eq_bind, Option.bind_eq_some_iff] at h
  obtain ⟨tokenContext, -, metadata, -, h⟩ := h
  split at h
  · simp at h
  · simp [Option.bind_eq_some_iff] at h

theorem scanFilters_service {rootPath : GoString} {filterList : List FilterObject}
    (h : scanFilters cfg m requestMap rootPath filterList = some (.inr (.service message))) :
    message = finalizeMessage requestMap := by
  induction filterList with
  | nil => simp [scanFilters] at h
  | cons f filterList ih =>
    rw [scanFilters] at h
    split at h
    · split at h <;> simp at h
    · split at h
      · rw [Option.map_eq_some_iff] at h
        obtain ⟨reply, hreply, heq⟩ := h
        rw [Sum.inr.inj heq] at hreply
        exact absurd hreply staticMetadata_service
      · split at h
        · exact (Reply.service.inj (Sum.inr.inj (Option.some.inj h))).symm
        · exact ih h

/-- What is sent on for a request with another action than the internal ones. -/
theorem issueServiceRequest_service
    (h : issueServiceRequest cfg m requestMap action = some (.service message)) :
    message = finalizeMessage requestMap ∨
    (action ≠ str "internal-killsubscriptions" ∧ action ≠ str "internal-cancelsubscription" ∧
      ∃ paths tokenHandle gatingId,
        message = finalizeMessage (serviceMap requestMap paths tokenHandle gatingId)) := by
  unfold issueServiceRequest at h
  split at h
  · exact .inl (Reply.service.inj (Option.some.inj h)).symm
  · next haction =>
    rw [not_or] at haction
    simp only [Option.bind_eq_bind, Option.bind_eq_some_iff] at h
    obtain ⟨rootPath, -, scan, hscan, h⟩ := h
    split at h
    · rw [Option.some.inj h] at hscan
      exact .inl (scanFilters_service hscan)
    · obtain ⟨-, paths, tokenHandle, gatingId, -, hmessage⟩ := issueSearch_service h
      exact .inr ⟨haction.1, haction.2, paths, tokenHandle, gatingId, hmessage⟩
    · obtain ⟨-, paths, tokenHandle, gatingId, -, hmessage⟩ := issueSearch_service h
      exact .inr ⟨haction.1, haction.2, paths, tokenHandle, gatingId, hmessage⟩

theorem normalizePath_some {request : GoString} {requestMap requestMap' : GoMap Json}
    (hdecode : decodeMap request = some requestMap)
    (h : normalizePath requestMap = some (some requestMap')) :
    PrintableMap requestMap' ∧ (∀ k ≠ str "path", valueAt requestMap' k = valueAt requestMap k) ∧
      contains (textMember requestMap (str "path")) (str "*") = false := by
  unfold normalizePath at h
  split at h
  · next hnull =>
    obtain rfl := Option.some.inj (Option.some.inj h)
    refine ⟨decodeMap_printableMap hdecode, fun _ _ => rfl, ?_⟩
    have hpath : asString (valueAt requestMap (str "path")) = none := by
      refine asString_eq_none.mpr fun path hpath => ?_
      rw [hpath] at hnull
      simp [isNull] at hnull
    rw [textMember, hpath]
    decide
  · simp only [Option.bind_eq_bind, Option.bind_eq_some_iff] at h
    obtain ⟨path, hpath, h⟩ := h
    split at h
    · simp at h
    · next hwildcard =>
      obtain rfl := Option.some.inj (Option.some.inj h)
      refine ⟨(decodeMap_printableMap hdecode).set (validString_member (by decide)) trivial,
        fun k hk => ?_, ?_⟩
      · rw [valueAt_set, if_neg hk]
      · rw [textMember, hpath]
        simpa using hwildcard

end

theorem actionOf_eq_unsubscribe {requestMap : GoMap Json}
    (h : actionOf requestMap = .unsubscribe) :
    textMember requestMap (str "action") = str "unsubscribe" := by
  unfold actionOf at h
  dsimp only at h
  split_ifs at h with h₁ h₂ h₃ h₄
  exact h₄

theorem actionOf_eq_cancelSubscription {requestMap : GoMap Json}
    (h : actionOf requestMap = .cancelSubscription) :
    textMember requestMap (str "action") = str "internal-cancelsubscription" := by
  unfold actionOf at h
  dsimp only at h
  split_ifs at h with h₁ h₂ h₃ h₄ h₅ h₆
  exact h₆

/-- The entries that a request names are told by its action and a few of its members. -/
theorem names_congr {requestMap requestMap' : GoMap Json}
    (haction : actionOf requestMap' = actionOf requestMap)
    (hunsubscribe : actionOf requestMap ≠ .unsubscribe)
    (hrouter : asString (valueAt requestMap' (str "RouterId")) =
      asString (valueAt requestMap (str "RouterId")))
    (hgating : actionOf requestMap = .cancelSubscription →
      asString (valueAt requestMap' (str "gatingId")) =
        asString (valueAt requestMap (str "gatingId"))) (s : State) :
    names s requestMap' = names s requestMap := by
  funext e
  unfold names
  rw [haction]
  cases h : actionOf requestMap with
  | unsubscribe => exact absurd h hunsubscribe
  | killSubscriptions =>
    dsimp only
    rw [hrouter]
  | cancelSubscription =>
    dsimp only
    rw [cancelled, cancelled, hgating h]
  | set => rfl
  | get => rfl
  | subscribe => rfl
  | other => rfl

/-- The checks that the core makes of every request before it looks at its action: the text
has the words that the action needs, and the path has no wildcard. -/
def Accepted (request : GoString) : Prop :=
  validRequest request (textMember (requestMapOf request) (str "action")) = true ∧
    contains (textMember (requestMapOf request) (str "path")) (str "*") = false
  deriving Decidable

/-- A request that is sent on was accepted, and the service manager finds the action and the
naming members of the client's request in it. -/
theorem serveRequest_service {cfg : Config} {m : Moment} {request message : GoString}
    (h : serveRequest cfg m request = some (.service message)) :
    Accepted request ∧
      actionOf (requestMapOf message) = actionOf (requestMapOf request) ∧
      ∀ s, names s (requestMapOf message) = names s (requestMapOf request) := by
  unfold serveRequest at h
  split at h
  · simp at h
  · next requestMap hdecode =>
    have hrequest : requestMapOf request = requestMap := by
      rw [requestMapOf, hdecode, Option.getD_some]
    split at h
    · simp at h
    · simp only [Option.bind_eq_bind, Option.bind_eq_some_iff] at h
      obtain ⟨action, haction, h⟩ := h
      have htext : textMember requestMap (str "action") = action := by
        rw [textMember, haction, Option.getD_some]
      rw [asString_eq_some] at haction
      split at h
      · simp at h
      · next hvalid =>
        simp only [Option.bind_eq_some_iff] at h
        obtain ⟨normalized, hnormalize, h⟩ := h
        split at h
        · simp at h
        · next requestMap' =>
          obtain ⟨hprintable, hsame, hwildcard⟩ := normalizePath_some hdecode hnormalize
          have haccepted : Accepted request := by
            refine ⟨?_, hrequest ▸ hwildcard⟩
            rw [hrequest, htext]
            simpa using hvalid
          refine ⟨haccepted, ?_⟩
          split at h
          · simp at h
          · split at h
            · -- an unsubscribe request is sent on as it came
              obtain rfl := Reply.service.inj (Option.some.inj h)
              exact ⟨rfl, fun _ => rfl⟩
            · next hunsubscribe =>
              rw [hrequest]
              have hsendable : Sendable requestMap requestMap' := by
                refine ⟨hprintable, fun k hk => hsame k ?_⟩
                rintro rfl
                exact hk (by decide)
              obtain ⟨sent, hsent, rfl, hgating⟩ : ∃ sent, Sendable requestMap sent ∧
                  message = finalizeMessage sent ∧
                  (actionOf requestMap = .cancelSubscription →
                    valueAt sent (str "gatingId") = valueAt requestMap (str "gatingId")) := by
                rcases issueServiceRequest_service h with rfl |
                  ⟨-, hcancel, paths, tokenHandle, gatingId, rfl⟩
                · exact ⟨requestMap', hsendable, rfl, fun _ => hsame _ (by decide)⟩
                · refine ⟨_, hsendable.serviceMap paths tokenHandle gatingId, rfl, fun h => ?_⟩
                  exact absurd (htext.symm.trans (actionOf_eq_cancelSubscription h)) hcancel
              have haction' : actionOf (requestMapOf (finalizeMessage sent)) =
                  actionOf requestMap := by
                rw [actionOf, hsent.textMember hdecode (by decide), actionOf]
              refine ⟨haction', fun s => names_congr haction' ?_ ?_ ?_ s⟩
              · exact fun h => hunsubscribe (htext.symm.trans (actionOf_eq_unsubscribe h))
              · exact asString_finalizeMessage hdecode hsent.printable (by decide)
                  (hsent.same _ (by decide))
              · exact fun h => asString_finalizeMessage hdecode hsent.printable (by decide)
                  (hgating h)

end VissServer.Core
