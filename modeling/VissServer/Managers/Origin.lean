import VissServer.Go.JsonSplice
import VissServer.Go.Numerals
import VissServer.Managers.Routing

/-!
The routing data that the core decodes from a forwarded request. It stands in front of
the client's members, and the last of duplicate members is kept, so that a client can
replace it.
-/
namespace VissServer.Managers

open Go Utils

/-- The core decodes the router id of the session, and an origin for which
issueServiceRequest does not skip the validation. -/
def Routed (mgrId clientId : ℤ) (request : GoString) : Prop :=
  ∃ requestMap, mapRequest request = some requestMap ∧
    valueAt requestMap (str "RouterId") = .str (routerId mgrId clientId) ∧
    valueAt requestMap (str "origin") ≠ .str (str "internal")

/-- The client's object has a member, and its last RouterId and origin members, where it
has some, do no harm. -/
def LeavesRouting (mgrId clientId : ℤ) (members : List (GoString × Json)) : Prop :=
  members ≠ [] ∧
    (∀ v, lastMember members (str "RouterId") = some v → v = .str (routerId mgrId clientId)) ∧
    lastMember members (str "origin") ≠ some (.str (str "internal"))

theorem isPlain_routerId (mgrId clientId : ℤ) :
    ∀ c ∈ routerId mgrId clientId, isPlain c = true := by
  intro c hc
  simp only [routerId, List.mem_append] at hc
  rcases hc with (hc | hc) | hc
  · exact isPlain_itoa c hc
  · have hquestion : str "?" = [63] := rfl
    rw [hquestion, List.mem_singleton] at hc
    rw [hc]
    decide
  · exact isPlain_itoa c hc

/-- The members that AddRoutingForwardRequest puts into a request. -/
def externalMembers (mgrId clientId : ℤ) : List (GoString × GoString) :=
  [(str "RouterId", routerId mgrId clientId), (str "origin", str "external")]

theorem addRoutingForwardRequest_eq (reqMessage : GoString) (mgrId clientId : ℤ) :
    addRoutingForwardRequest reqMessage mgrId clientId =
      replaceFirst reqMessage [123] (123 :: ([] ++ spliceText (externalMembers mgrId clientId))) := by
  have hbrace : str "\x7b" = [123] := rfl
  have hname : str "\"RouterId\":\"" = str "\"" ++ str "RouterId" ++ str "\":\"" := rfl
  have hexternal : str "\"origin\":\"external\", " =
      str "\"" ++ str "origin" ++ str "\":\"" ++ str "external" ++ str "\", " := rfl
  have hcomma : str "\", " = str "\"" ++ str ", " := rfl
  rw [addRoutingForwardRequest, createRouterIdProperty, hbrace, hname, hexternal]
  simp [spliceText, externalMembers, hcomma]

theorem addRoutingInfoAndForward_eq (reqMessage : GoString) (mgrId clientId : ℤ) :
    addRoutingInfoAndForward reqMessage mgrId clientId =
      replaceFirst reqMessage [123]
        (123 :: ([32] ++ spliceText [(str "RouterId", routerId mgrId clientId)])) := by
  have hbrace : str "\x7b" = [123] := rfl
  have hname : str "\x7b \"RouterId\":\"" =
      123 :: 32 :: (str "\"" ++ str "RouterId" ++ str "\":\"") := rfl
  rw [addRoutingInfoAndForward, hbrace, hname]
  simp [spliceText]

/-- The members that a splice adds decide what the client's members leave open. -/
theorem valueAt_splice {added : List (GoString × GoString)} {members : List (GoString × Json)}
    {k v : GoString} (hadded : lastMember (stringMembers added) k = some (.str v)) :
    valueAt (GoMap.ofMembers (canonMembers (stringMembers added ++ members))) k = .str v ↔
      ∀ w, lastMember members k = some w → w = .str v := by
  rw [valueAt_ofMembers, lastMember_append, hadded]
  cases lastMember members k with
  | none => simp [canon]
  | some w => simp [canon_eq_str]

/-- A string that the splice does not add comes from the client. -/
theorem valueAt_splice_ne {added : List (GoString × GoString)}
    {members : List (GoString × Json)} {k v : GoString}
    (hadded : lastMember (stringMembers added) k ≠ some (.str v)) :
    valueAt (GoMap.ofMembers (canonMembers (stringMembers added ++ members))) k ≠ .str v ↔
      lastMember members k ≠ some (.str v) := by
  rw [valueAt_ofMembers, lastMember_append]
  cases lastMember members k with
  | none =>
    cases hlast : lastMember (stringMembers added) k with
    | none => simp [canon]
    | some w =>
      have hw : w ≠ .str v := fun h => hadded (h ▸ hlast)
      simp [canon_eq_str, hw]
  | some w => simp [canon_eq_str]

/-- The routing data of a request whose text got members spliced in, the router id among
them and no internal origin. -/
theorem routed_splice_iff {mgrId clientId : ℤ} {text : GoString}
    {members : List (GoString × Json)} (h : parseText text = some (.obj members))
    {added : List (GoString × GoString)}
    (hplain : ∀ p ∈ added, (∀ c ∈ p.1, isPlain c = true) ∧ ∀ c ∈ p.2, isPlain c = true)
    (hrouter : lastMember (stringMembers added) (str "RouterId") =
      some (.str (routerId mgrId clientId)))
    (horigin : lastMember (stringMembers added) (str "origin") ≠ some (.str (str "internal")))
    {gap : GoString} (hgap : gap = [] ∨ gap = [32]) :
    Routed mgrId clientId (replaceFirst text [123] (123 :: (gap ++ spliceText added))) ↔
      LeavesRouting mgrId clientId members := by
  have hne : added ≠ [] := by
    rintro rfl
    simp [stringMembers, lastMember] at hrouter
  rw [Routed, mapRequest, decodeMap_splice h hne hplain hgap]
  by_cases hmembers : members = []
  · simp [hmembers, LeavesRouting]
  · rw [if_neg hmembers]
    simp only [Option.some.injEq, exists_eq_left', LeavesRouting, ne_eq, hmembers,
      not_false_eq_true, true_and, valueAt_splice hrouter]
    rw [← ne_eq, valueAt_splice_ne horigin]

theorem routed_forward_iff {mgrId clientId : ℤ} {text : GoString}
    {members : List (GoString × Json)} (h : parseText text = some (.obj members)) :
    Routed mgrId clientId (addRoutingForwardRequest text mgrId clientId) ↔
      LeavesRouting mgrId clientId members := by
  rw [addRoutingForwardRequest_eq]
  refine routed_splice_iff h ?_ rfl ?_ (.inl rfl)
  · simp only [externalMembers, List.forall_mem_cons]
    exact ⟨⟨List.all_eq_true.mp (by decide), isPlain_routerId mgrId clientId⟩,
      ⟨List.all_eq_true.mp (by decide), List.all_eq_true.mp (by decide)⟩, nofun⟩
  · have horigin : lastMember (stringMembers (externalMembers mgrId clientId)) (str "origin") =
        some (.str (str "external")) := rfl
    rw [horigin]
    intro hinternal
    have hstr : str "external" = str "internal" := by simpa using hinternal
    exact absurd hstr (by decide)

theorem routed_added_iff {mgrId clientId : ℤ} {text : GoString}
    {members : List (GoString × Json)} (h : parseText text = some (.obj members)) :
    Routed mgrId clientId (replaceFirst text [123]
        (123 :: ([32] ++ spliceText [(str "RouterId", routerId mgrId clientId)]))) ↔
      LeavesRouting mgrId clientId members := by
  refine routed_splice_iff h ?_ rfl ?_ (.inr rfl)
  · simp only [List.forall_mem_cons]
    exact ⟨⟨List.all_eq_true.mp (by decide), isPlain_routerId mgrId clientId⟩, nofun⟩
  · have horigin : lastMember (stringMembers [(str "RouterId", routerId mgrId clientId)])
        (str "origin") = none := rfl
    rw [horigin]
    simp

section Http

/-- The member names of the map that the HTTP manager builds. -/
def httpNames : List GoString :=
  [str "path", str "authorization", str "requestId", str "action", str "value"]

/-- A nonempty map of strings under names of the HTTP manager. -/
def HttpMap (m : GoMap Json) : Prop :=
  m ≠ [] ∧ ∀ p ∈ m, p.1 ∈ httpNames ∧ ∃ s, p.2 = .str s

theorem HttpMap.set {m : GoMap Json} (h : HttpMap m) {k : GoString} (hk : k ∈ httpNames)
    (s : GoString) : HttpMap (m.set k (.str s)) := by
  refine ⟨GoMap.set_ne_nil _ _ _, fun p hp => ?_⟩
  rcases GoMap.mem_set hp with rfl | hp
  · exact ⟨hk, s, rfl⟩
  · exact h.2 p hp

theorem httpMap_path (path : GoString) : HttpMap (GoMap.set [] (str "path") (.str path)) := by
  have hname : str "path" ∈ httpNames := by decide
  refine ⟨GoMap.set_ne_nil _ _ _, fun p hp => ?_⟩
  rcases GoMap.mem_set hp with rfl | hp
  · exact ⟨hname, path, rfl⟩
  · simp at hp

theorem httpRequestMap_httpMap {requestTag : ℤ} {req : HttpRequest} {path : GoString}
    {m : GoMap Json} (h : httpRequestMap requestTag req path = some m) : HttpMap m := by
  have hpath := httpMap_path path
  unfold httpRequestMap at h
  dsimp only at h
  set authorized : GoMap Json := if req.authorization = [] then GoMap.set [] (str "path") (.str path)
    else (GoMap.set [] (str "path") (.str path)).set (str "authorization")
      (.str (trimPrefix req.authorization (str "Bearer "))) with hdef
  have hauthorized : HttpMap authorized := by
    rw [hdef]
    split
    · exact hpath
    · exact hpath.set (by decide) _
  have htagged := hauthorized.set (show str "requestId" ∈ httpNames by decide) (itoa requestTag)
  split at h
  · obtain rfl := Option.some.inj h
    exact htagged.set (by decide) _
  · split at h
    · obtain rfl := Option.some.inj h
      exact (htagged.set (by decide) _).set (by decide) _
    · simp at h

/-- What is read back of the text of such a map leaves the routing data alone. -/
theorem HttpMap.leavesRouting {m : GoMap Json} (h : HttpMap m) (mgrId clientId : ℤ) :
    ∃ members, parseText (finalizeMessage m) = some (.obj members) ∧
      LeavesRouting mgrId clientId members := by
  have hdelete : m.delete (str "origin") = m := by
    refine List.filter_eq_self.mpr fun p hp => ?_
    obtain ⟨hk, -⟩ := h.2 p hp
    have horigin : str "origin" ∉ httpNames := by decide
    have hne : p.1 ≠ str "origin" := by
      intro heq
      exact horigin (heq ▸ hk)
    simpa using hne
  have hprintable : Printable maxNestingDepth (.obj m) := by
    rw [show maxNestingDepth = 9999 + 1 from rfl]
    intro p hp
    obtain ⟨-, s, hs⟩ := h.2 p hp
    rw [hs]
    exact trivial
  have hplain : ∀ k ∈ httpNames, sanitizeString k = k := by
    intro k hk
    have hall : ∀ k ∈ httpNames, k.all isPlain = true := by decide
    exact (validString_of_isPlain (List.all_eq_true.mp (hall k hk))).sanitize
  have hnames : ∀ l : List (GoString × Json), (∀ p ∈ l, p.1 ∈ httpNames) →
      ∀ p ∈ sanitizeMembers l, p.1 ∈ httpNames := by
    intro l
    induction l with
    | nil => exact fun _ p hp => absurd hp (by simp [sanitizeMembers])
    | cons q l ih =>
      intro hl p hp
      obtain ⟨hq, hl⟩ := List.forall_mem_cons.mp hl
      rw [sanitizeMembers] at hp
      rcases List.mem_cons.mp hp with rfl | hp
      · simpa only [hplain q.1 hq] using hq
      · exact ih hl p hp
  have hlast : ∀ k, k ∉ httpNames → lastMember (sanitizeMembers m) k = none := by
    intro k hk
    refine lastMember_eq_none fun p hp heq => hk ?_
    exact heq ▸ hnames m (fun p hp => (h.2 p hp).1) p hp
  refine ⟨sanitizeMembers m, ?_, ?_, ?_, ?_⟩
  · rw [finalizeMessage, hdelete, parseText_marshal hprintable, sanitize]
  · obtain ⟨p, rest, rfl⟩ := List.exists_cons_of_ne_nil h.1
    simp [sanitizeMembers]
  · intro v hv
    rw [hlast _ (by decide)] at hv
    simp at hv
  · rw [hlast _ (by decide)]
    simp

/-- An HTTP request without a query value keeps the routing data of its session. -/
theorem routed_http {mgrId clientId requestTag : ℤ} {req : HttpRequest} {message : GoString}
    (h : frontendHttpAppSession requestTag req = some (some (message, []))) :
    Routed mgrId clientId (addRoutingForwardRequest message mgrId clientId) := by
  simp only [frontendHttpAppSession, Option.bind_eq_bind, Option.bind_eq_some_iff] at h
  obtain ⟨⟨path, queryKey, queryValue⟩, -, h⟩ := h
  cases hmap : httpRequestMap requestTag req path with
  | none => simp [hmap] at h
  | some m =>
    simp only [hmap, Option.bind_eq_some_iff, Option.some.injEq, Prod.mk.injEq] at h
    obtain ⟨message', hkey, rfl, rfl⟩ := h
    have hmessage : message' = finalizeMessage m := (Option.some.inj hkey).symm
    obtain ⟨members, hparse, hmembers⟩ :=
      (httpRequestMap_httpMap hmap).leavesRouting mgrId clientId
    rw [hmessage]
    exact (routed_forward_iff hparse).mpr hmembers

end Http

section Mqtt

/-- A text that does not start like an object is decoded to no member. -/
theorem decodeMap_of_head {c : UInt8} (hspace : isSpace c = false) (hbrace : c ≠ 123)
    (s : GoString) : decodeMap (c :: s) = none ∨ decodeMap (c :: s) = some [] := by
  rw [decodeMap, parseFirst, skipSpace_of_head hspace]
  cases hvalue : parseValue maxNestingDepth (c :: s) with
  | none => exact .inl rfl
  | some p =>
    obtain ⟨v, rest⟩ := p
    cases v with
    | obj members =>
      obtain ⟨body, hbody⟩ := parseValue_object hvalue
      exact absurd (List.cons.inj hbody).1 hbrace
    | null => exact .inr rfl
    | bool b => exact .inl rfl
    | num literal => exact .inl rfl
    | str t => exact .inl rfl
    | arr items => exact .inl rfl

/-- The first byte stays where the replaced brace is a later one. -/
theorem replaceFirst_head {c : UInt8} (hbrace : c ≠ 123) (s new : GoString) :
    ∃ t, replaceFirst (c :: s) [123] new = c :: t := by
  rw [replaceFirst]
  cases hindex : index? [123] (c :: s) with
  | none => exact ⟨s, rfl⟩
  | some i =>
    cases i with
    | zero =>
      have hne : ¬ 123 = c := fun h => hbrace h.symm
      simp [index?, hne] at hindex
    | succ i => exact ⟨s.take i ++ (new ++ s.drop (i + 1)), by simp⟩

theorem mqttRequest_wellFormed (mqttPayload : GoString) :
    WellFormed maxNestingDepth (mqttRequest mqttPayload) := by
  have hdefault : ∀ k, WellFormed maxNestingDepth (valueAt [] k) := fun _ => trivial
  rw [mqttRequest, mapRequest, decodeMap]
  cases hvalue : parseFirst mqttPayload with
  | none => exact hdefault _
  | some p =>
    obtain ⟨v, rest⟩ := p
    have hwell : WellFormed (9999 + 1) v := parseValue_wellFormed hvalue
    cases v with
    | obj members =>
      have hmember : ∀ {k w}, lastMember members k = some w → WellFormed 9999 w := by
        intro k w hw
        obtain ⟨before, after, hsplit, -⟩ := List.lookup_eq_some_iff.mp hw
        have hmem : (k, w) ∈ members := by
          rw [← List.mem_reverse, hsplit]
          simp
        exact (hwell (k, w) hmem).2
      simp only [Option.getD_some, valueAt_ofMembers]
      cases hlast : lastMember members (str "request") with
      | none => exact hdefault []
      | some w => exact (hmember hlast).canon.succ
    | null => exact hdefault _
    | bool b => exact hdefault _
    | num literal => exact hdefault _
    | str t => exact hdefault _
    | arr items => exact hdefault _

/-- A request of the MQTT manager is routed exactly if it is an object that leaves the
routing data alone. -/
theorem routed_mqtt_iff {mgrId clientId : ℤ} (mqttPayload : GoString) :
    Routed mgrId clientId
        (addRoutingInfoAndForward (marshal (mqttRequest mqttPayload)) mgrId clientId) ↔
      ∃ members, mqttRequest mqttPayload = .obj members ∧
        LeavesRouting mgrId clientId members := by
  have hwell := mqttRequest_wellFormed mqttPayload
  obtain ⟨c, t, hmarshal, hc⟩ := marshal_head hwell.printable
  have hread := parseText_marshal hwell.printable
  rw [hwell.sanitize] at hread
  rw [addRoutingInfoAndForward_eq]
  constructor
  · intro hrouted
    by_cases hbrace : c = 123
    · obtain ⟨members, hobj⟩ := hc.brace hbrace
      rw [hobj] at hread hrouted
      exact ⟨members, hobj, (routed_added_iff hread).mp hrouted⟩
    · -- no object is decoded, whatever was put behind a later brace
      obtain ⟨t', hreplace⟩ := replaceFirst_head hbrace t
        (123 :: ([32] ++ spliceText [(str "RouterId", routerId mgrId clientId)]))
      obtain ⟨requestMap, hmap, hrouter, -⟩ := hrouted
      rw [hmarshal] at hmap
      rw [hreplace, mapRequest] at hmap
      rcases decodeMap_of_head hc.space hbrace t' with hnone | hnil
      · simp [hnone] at hmap
      · obtain rfl := Option.some.inj (hnil.symm.trans hmap)
        simp [valueAt, GoMap.get] at hrouter
  · rintro ⟨members, hobj, hmembers⟩
    rw [hobj] at hread ⊢
    exact (routed_added_iff hread).mpr hmembers

end Mqtt

/-- The core decodes the router id of the sending session and no internal origin exactly
where the last RouterId and origin members of the client's object do no harm; in a
request of the HTTP manager there are none unless a query value was merged into it. -/
theorem origin_routing_iff (mgrId clientId : ℤ) :
    (∀ text members, parseText text = some (.obj members) →
      (Routed mgrId clientId (addRoutingForwardRequest text mgrId clientId) ↔
        LeavesRouting mgrId clientId members)) ∧
    (∀ requestTag req message,
      frontendHttpAppSession requestTag req = some (some (message, [])) →
        Routed mgrId clientId (addRoutingForwardRequest message mgrId clientId)) ∧
    (∀ mqttPayload topic text, decomposeMqttPayload mqttPayload = some (topic, text) →
      (Routed mgrId clientId (addRoutingInfoAndForward text mgrId clientId) ↔
        ∃ members, mqttRequest mqttPayload = .obj members ∧
          LeavesRouting mgrId clientId members)) := by
  refine ⟨fun text members h => routed_forward_iff h, fun _ _ _ h => routed_http h, ?_⟩
  intro mqttPayload topic text h
  have htext : text = marshal (mqttRequest mqttPayload) := by
    simp only [decomposeMqttPayload, Option.map_eq_some_iff, Prod.mk.injEq] at h
    obtain ⟨_, -, -, rfl⟩ := h
    rfl
  rw [htext]
  exact routed_mqtt_iff mqttPayload

/-- A websocket request that tells its own origin. -/
def spoofedRequest : GoString :=
  str "\x7b\"action\":\"set\",\"path\":\"Vehicle.Door\",\"value\":\"1\",\"origin\":\"internal\"\x7d"

def spoofedMembers : List (GoString × Json) :=
  [(str "action", .str (str "set")), (str "path", .str (str "Vehicle.Door")),
    (str "value", .str (str "1")), (str "origin", .str (str "internal"))]

theorem parseText_spoofed : parseText spoofedRequest = some (.obj spoofedMembers) := by
  rfl

/-- It is not routed as a request of a client. -/
theorem origin_spoofed :
    ¬ ∀ mgrId clientId text members, parseText text = some (.obj members) →
      Routed mgrId clientId (addRoutingForwardRequest text mgrId clientId) := by
  intro hclaim
  have hrouted := (routed_forward_iff parseText_spoofed).mp
    (hclaim 1 0 spoofedRequest spoofedMembers parseText_spoofed)
  exact hrouted.2.2 rfl

/-- A request without members of these names is routed. -/
theorem origin_routing_plain :
    Routed 1 0 (addRoutingForwardRequest (str "\x7b\"action\":\"get\",\"path\":\"Vehicle\"\x7d") 1 0) :=
  ((origin_routing_iff 1 0).1 _
    [(str "action", .str (str "get")), (str "path", .str (str "Vehicle"))] rfl).mpr
    ⟨List.cons_ne_nil _ _, fun _ h => absurd h nofun, nofun⟩

end VissServer.Managers
