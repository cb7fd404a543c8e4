import VissServer.Managers.RouterIds
import VissServer.MqttMgr.TopicList

/-!
The hub of the MQTT manager (mqttMgr.go): it numbers the requests of the broker, remembers their
topics and publishes what the core sends on the topic of the request. What comes from the core
comes through vissv2Receiver, which can take a request of the hub itself.
-/
namespace VissServer.MqttMgr

open Go Utils Managers

/-! ## The start -/

/-- The value behind the first text value of a response; a response without it ends the
process. -/
def extractVin (response : GoString) : MayPanic GoString :=
  let vinStartIndex := index response (str "value")
  if vinStartIndex = -1 then none
  else slice response (vinStartIndex + 8) (nextQuoteMark response (vinStartIndex + 8))

/-- The topic to which the manager subscribes, by the response to its own request. -/
def getVissV2Topic (response : GoString) : MayPanic GoString :=
  (extractVin response).map fun vin => str "/" ++ vin ++ str "/Vehicle"

/-- What the hub takes: a payload of the broker or a message of vissv2Receiver. -/
inductive Event
  | payload (mqttPayload : GoString)
  | message (vissv2Message : GoString)
  deriving DecidableEq

/-- What it does with it. -/
inductive Effect
  | forward (request : GoString)
  | publish (topic payload : GoString)
  deriving DecidableEq

structure Hub where
  topicList : TopicList := {}
  topicId : ℤ := 0

/-- One round of MqttMgrInit. -/
def Hub.take (mgrId : ℤ) (hub : Hub) : Event → MayPanic (Hub × Effect)
  | .payload mqttPayload => do
      let (topic, payload) ← decomposeMqttPayload mqttPayload
      let topicList ← pushTopic hub.topicList topic hub.topicId
      some ({ topicList, topicId := hub.topicId + 1 },
        .forward (addRoutingInfoAndForward payload mgrId hub.topicId))
  | .message vissv2Message => do
      let (payload, topicHandle) ← removeInternalData vissv2Message
      let topic ← getTopic hub.topicList topicHandle
      some (hub, .publish topic payload)

def Hub.takeAll (mgrId : ℤ) (hub : Hub) : List Event → MayPanic (Hub × List Effect)
  | [] => some (hub, [])
  | event :: events => do
      let (hub, effect) ← hub.take mgrId event
      let (hub, effects) ← hub.takeAll mgrId events
      some (hub, effect :: effects)

/-! ## Topics by number -/

/-- The entries of the requests so far, by their numbers. -/
def numbered (topics : List GoString) : List NodeValue :=
  topics.mapIdx fun i topic => { topicId := i, topic }

/-- The topic of the request with a number, an empty one where there is no such request. -/
def topicOf (topics : List GoString) (topicId : ℤ) : GoString :=
  if topicId < 0 then [] else (topics[topicId.toNat]?).getD []

section Numbers

variable {topics : List GoString} {topicId : ℤ}

theorem lookup_append (front back : List NodeValue) (topicId : ℤ) :
    lookup (front ++ back) topicId = (lookup front topicId).or (lookup back topicId) := by
  unfold lookup
  rw [List.find?_append]
  cases front.find? fun entry => entry.topicId = topicId <;> rfl

theorem numbered_concat (topics : List GoString) (topic : GoString) :
    numbered (topics ++ [topic]) = numbered topics ++ [⟨topics.length, topic⟩] := by
  simp [numbered, List.mapIdx_append]

/-- It is an induction from the latest request on. -/
theorem lookup_numbered (topics : List GoString) (k : ℕ) :
    lookup (numbered topics) k = topics[k]? := by
  induction topics using List.reverseRecOn with
  | nil => rfl
  | append_singleton topics topic ih =>
    rw [numbered_concat, lookup_append, ih]
    by_cases hlt : k < topics.length
    · rw [List.getElem?_append_left hlt, List.getElem?_eq_getElem hlt, Option.some_or]
    · rw [List.getElem?_eq_none (by omega), Option.none_or,
        List.getElem?_append_right (by omega)]
      by_cases heq : k = topics.length
      · simp [lookup, heq]
      · have hne : ¬ (topics.length : ℤ) = k := by omega
        have hafter : ([topic] : List GoString)[k - topics.length]? = none :=
          List.getElem?_eq_none (by rw [List.length_singleton]; omega)
        simp [lookup, hne, hafter]

theorem lookup_numbered_neg (topics : List GoString) (h : topicId < 0) :
    lookup (numbered topics) topicId = none := by
  rw [lookup, Option.map_eq_none_iff, List.find?_eq_none]
  intro entry hentry
  obtain ⟨i, hi, rfl⟩ := List.mem_mapIdx.mp hentry
  simp only [decide_eq_true_eq]
  omega

theorem lookup_eq_topicOf (topics : List GoString) (topicId : ℤ) :
    (lookup (numbered topics) topicId).getD [] = topicOf topics topicId := by
  unfold topicOf
  split
  · rename_i hneg
    rw [lookup_numbered_neg topics hneg]
    rfl
  · rename_i hnonneg
    obtain ⟨k, rfl⟩ := Int.eq_ofNat_of_zero_le (not_lt.mp hnonneg)
    rw [lookup_numbered, Int.toNat_natCast]

theorem topicOf_number {k : ℕ} {topic : GoString} (h : topics[k]? = some topic) :
    topicOf topics k = topic := by
  rw [topicOf, if_neg (by omega), Int.toNat_natCast, h]
  rfl

end Numbers

/-! ## Runs -/

/-- The hub has numbered the requests with these topics. -/
structure Remembers (hub : Hub) (topics : List GoString) : Prop where
  list : hub.topicList.Represents (numbered topics)
  next : hub.topicId = topics.length

/-- A payload is taken apart, and routing data is cut out of a message. -/
def Event.Readable : Event → Prop
  | .payload mqttPayload => (decomposeMqttPayload mqttPayload).isSome
  | .message vissv2Message => (removeInternalData vissv2Message).isSome

/-- The topic of a request. -/
def Event.topic? : Event → Option GoString
  | .payload mqttPayload => (decomposeMqttPayload mqttPayload).map Prod.fst
  | .message _ => none

def topicsOf (events : List Event) : List GoString := events.filterMap Event.topic?

/-- What the hub does with an event, behind requests with these topics. -/
def Does (mgrId : ℤ) (topics : List GoString) : Event → Effect → Prop
  | .payload mqttPayload, effect => ∃ topic request,
      decomposeMqttPayload mqttPayload = some (topic, request) ∧
        effect = .forward (addRoutingInfoAndForward request mgrId topics.length)
  | .message vissv2Message, effect => ∃ payload topicId,
      removeInternalData vissv2Message = some (payload, topicId) ∧
        effect = .publish (topicOf topics topicId) payload

section Runs

variable {mgrId : ℤ} {hub : Hub} {topics : List GoString} {event : Event} {events : List Event}

theorem remembers_start : Remembers {} [] := ⟨represents_empty, rfl⟩

variable (mgrId) in
/-- One round. -/
theorem Remembers.take (h : Remembers hub topics) (hread : event.Readable) :
    ∃ hub' effect, hub.take mgrId event = some (hub', effect) ∧ Does mgrId topics event effect ∧
      Remembers hub' (topics ++ event.topic?.toList) := by
  cases event with
  | payload mqttPayload =>
    obtain ⟨⟨topic, request⟩, hdecompose⟩ := Option.isSome_iff_exists.mp hread
    obtain ⟨list, hpush, hlist⟩ := h.list.pushTopic topic hub.topicId
    have htopic : (Event.payload mqttPayload).topic?.toList = [topic] := by
      rw [Event.topic?, hdecompose]
      rfl
    refine ⟨{ topicList := list, topicId := hub.topicId + 1 },
      .forward (addRoutingInfoAndForward request mgrId hub.topicId), ?_,
      ⟨topic, request, hdecompose, by rw [h.next]⟩, ?_, ?_⟩
    · rw [Hub.take, hdecompose]
      simp only [Option.bind_eq_bind, Option.bind_some, hpush]
    · rw [htopic, numbered_concat, ← h.next]
      exact hlist
    · rw [htopic, List.length_append, List.length_singleton, h.next]
      rfl
  | message vissv2Message =>
    obtain ⟨⟨payload, topicId⟩, hremove⟩ := Option.isSome_iff_exists.mp hread
    refine ⟨hub, .publish (topicOf topics topicId) payload, ?_,
      ⟨payload, topicId, hremove, rfl⟩, ?_⟩
    · rw [Hub.take, hremove]
      simp only [Option.bind_eq_bind, Option.bind_some, h.list.getTopic, lookup_eq_topicOf]
    · rw [Event.topic?, Option.toList_none, List.append_nil]
      exact h

theorem readable_of_take {result : Hub × Effect} (h : hub.take mgrId event = some result) :
    event.Readable := by
  cases event with
  | payload mqttPayload =>
    obtain ⟨parts, hparts, -⟩ := Option.bind_eq_some_iff.mp h
    exact Option.isSome_of_eq_some hparts
  | message vissv2Message =>
    obtain ⟨parts, hparts, -⟩ := Option.bind_eq_some_iff.mp h
    exact Option.isSome_of_eq_some hparts

/-- Each event has its effect, by the topics of the requests before it. -/
def DoesAll (mgrId : ℤ) (topics : List GoString) (events : List Event) (effects : List Effect) :
    Prop :=
  effects.length = events.length ∧ ∀ (i : ℕ) (event : Event), events[i]? = some event →
    ∃ effect, effects[i]? = some effect ∧
      Does mgrId (topics ++ topicsOf (events.take i)) event effect

theorem topicsOf_cons (event : Event) (events : List Event) :
    topicsOf (event :: events) = event.topic?.toList ++ topicsOf events := by
  unfold topicsOf
  cases htopic : event.topic? with
  | none => rw [List.filterMap_cons_none htopic]; rfl
  | some topic => rw [List.filterMap_cons_some htopic]; rfl

variable (mgrId) in
/-- A run, by induction over its events. -/
theorem Remembers.takeAll (h : Remembers hub topics) (hread : ∀ event ∈ events, event.Readable) :
    ∃ hub' effects, hub.takeAll mgrId events = some (hub', effects) ∧
      DoesAll mgrId topics events effects ∧ Remembers hub' (topics ++ topicsOf events) := by
  induction events generalizing hub topics with
  | nil =>
    refine ⟨hub, [], rfl, ⟨rfl, fun i event hi => by simp at hi⟩, ?_⟩
    rw [topicsOf, List.filterMap_nil, List.append_nil]
    exact h
  | cons event events ih =>
    obtain ⟨hevent, hread⟩ := List.forall_mem_cons.mp hread
    obtain ⟨hub', effect, htake, hdoes, hremembers⟩ := h.take mgrId hevent
    obtain ⟨hub'', effects, htakeAll, ⟨hlength, hall⟩, hlast⟩ := ih hremembers hread
    refine ⟨hub'', effect :: effects, ?_, ⟨?_, ?_⟩, ?_⟩
    · rw [Hub.takeAll, htake]
      simp only [Option.bind_eq_bind, Option.bind_some, htakeAll]
    · rw [List.length_cons, List.length_cons, hlength]
    · intro i e hi
      cases i with
      | zero =>
        obtain rfl : event = e := Option.some.inj hi
        refine ⟨effect, rfl, ?_⟩
        rw [List.take_zero, topicsOf, List.filterMap_nil, List.append_nil]
        exact hdoes
      | succ i =>
        obtain ⟨effect', heffect, hdoes'⟩ := hall i e hi
        refine ⟨effect', heffect, ?_⟩
        rw [List.take_succ_cons, topicsOf_cons, ← List.append_assoc]
        exact hdoes'
    · rw [topicsOf_cons, ← List.append_assoc]
      exact hlast

theorem readable_of_takeAll {result : Hub × List Effect}
    (h : hub.takeAll mgrId events = some result) : ∀ event ∈ events, event.Readable := by
  induction events generalizing hub result with
  | nil => simp
  | cons event events ih =>
    obtain ⟨⟨hub', effect⟩, htake, h⟩ := Option.bind_eq_some_iff.mp h
    obtain ⟨result', hrest, -⟩ := Option.bind_eq_some_iff.mp h
    exact List.forall_mem_cons.mpr ⟨readable_of_take htake, ih hrest⟩

end Runs

/-! ## Requests and responses -/

section Responses

variable {mgrId topicId : ℤ}

variable (mgrId) in
/-- What is cut out of a request that comes back to the hub is what the hub put into it. -/
theorem removeInternalData_forwarded (hlow : -9223372036854775808 ≤ topicId)
    (hhigh : topicId ≤ 9223372036854775807) (rest : GoString) :
    removeInternalData (addRoutingInfoAndForward (123 :: rest) mgrId topicId) =
      some (123 :: 32 :: 32 :: rest, topicId) := by
  have htext : addRoutingInfoAndForward (123 :: rest) mgrId topicId =
      routedText [123, 32] mgrId topicId (44 :: 32 :: rest) := by
    have hreplace : replaceFirst (123 :: rest) [123]
        (123 :: ([32] ++ spliceText [(str "RouterId", routerId mgrId topicId)])) =
          123 :: ([32] ++ spliceText [(str "RouterId", routerId mgrId topicId)]) ++ rest := by
      simp [replaceFirst, index?]
    have hopen : str "\":\"" = [34, 58, 34] := rfl
    have hclose : str "\", " = [34, 44, 32] := rfl
    have hquote : str "\"" = [34] := rfl
    rw [addRoutingInfoAndForward_eq, hreplace]
    simp [spliceText, routedText, routerKey, hopen, hclose, hquote]
  rw [htext, removeInternalData_comma (by decide) hlow hhigh]
  rfl

/-- The text of a request that is an object. -/
theorem decompose_object {mqttPayload topic request : GoString}
    {members : List (GoString × Json)}
    (hdecompose : decomposeMqttPayload mqttPayload = some (topic, request))
    (hobject : mqttRequest mqttPayload = .obj members) : ∃ rest, request = 123 :: rest := by
  obtain ⟨topic', -, hparts⟩ := Option.map_eq_some_iff.mp hdecompose
  obtain ⟨-, rfl⟩ := Prod.mk.inj hparts
  rw [hobject]
  exact ⟨_, rfl⟩

/-- A response of which another member follows the router id is cut into the same object without
it. -/
theorem removeInternalData_sent {responseMap : GoMap Json} {mgrId k : Int64} {text : GoString}
    (hmap : PrintableMap responseMap) (hbefore : NotBefore responseMap)
    (hfollowed : Followed responseMap text)
    (hrouter : valueAt responseMap routerKey = .str (routerId mgrId.toInt k.toInt))
    (h : Sent responseMap text) :
    ∃ t object, removeInternalData text = some (t, k.toInt) ∧
      unmarshalMap text = some object ∧ unmarshalMap t = some (object.delete routerKey) := by
  obtain ⟨before, tail, htext, hfront, hmembers, hbehind, -⟩ := h.split hmap hrouter hbefore
  obtain ⟨behind, members, rfl, hread, hkeys⟩ := hbehind hfollowed
  obtain ⟨object, hobject, hcut⟩ := unmarshalMap_cut (fun p hp => (hmembers p hp).1) trivial hread
    (p := (routerKey, .str (routerId mgrId.toInt k.toInt))) routerKey_valid
    (fun q hq => (hmembers q hq).2) hkeys
  rw [routedText_members] at hobject
  refine ⟨123 :: membersBefore before ++ behind, object, ?_, by rw [htext, hobject], hcut⟩
  rw [htext, removeInternalData_comma hfront k.le_toInt (Int.le_of_lt_add_one k.toInt_lt)]

/-- An event is the request with this number. -/
def Requests (events : List Event) (i : ℕ) (k : ℤ) (mqttPayload topic request : GoString) : Prop :=
  events[i]? = some (.payload mqttPayload) ∧
    decomposeMqttPayload mqttPayload = some (topic, request) ∧
    ((topicsOf (events.take i)).length : ℤ) = k

/-- The topic of a request is found under its number ever after. -/
theorem Requests.topicOf {events : List Event} {i j : ℕ} {k : ℤ}
    {mqttPayload topic request : GoString} (h : Requests events i k mqttPayload topic request)
    (hij : i < j) : topicOf (topicsOf (events.take j)) k = topic := by
  obtain ⟨hevent, hdecompose, rfl⟩ := h
  obtain ⟨hi, hget⟩ := List.getElem?_eq_some_iff.mp hevent
  have htaken : topicsOf (events.take (i + 1)) = topicsOf (events.take i) ++ [topic] := by
    rw [List.take_succ_eq_append_getElem hi, hget, topicsOf, List.filterMap_append,
      List.filterMap_cons_some (b := topic) (by rw [Event.topic?, hdecompose]; rfl)]
    rfl
  have hprefix : events.take (i + 1) <+: events.take j := List.take_prefix_take_left hij
  obtain ⟨rest, hrest⟩ := hprefix
  apply topicOf_number
  rw [← hrest, topicsOf, List.filterMap_append, ← topicsOf, htaken, List.append_assoc,
    List.getElem?_append_right (le_refl _), Nat.sub_self]
  rfl

/-- What a run does for its requests. -/
structure Serves (mgrId : Int64) (events : List Event) (hub : Hub) (effects : List Effect) :
    Prop where
  /-- Each event has one effect, a message that of its topic; no topic is forgotten. -/
  does : DoesAll mgrId.toInt [] events effects
  nodes : hub.topicList.nodes = (topicsOf events).length
  /-- A request is forwarded with its number, which the core decodes where the request leaves the
  routing data alone. -/
  forwards : ∀ i k mqttPayload topic request, Requests events i k mqttPayload topic request →
    ∃ text, effects[i]? = some (.forward text) ∧
      (Routed mgrId.toInt k text ↔ ∃ members, mqttRequest mqttPayload = .obj members ∧
        LeavesRouting mgrId.toInt k members)
  /-- A response to this number is published on the topic of the request, as the object without
  the routing data. -/
  publishes : ∀ (i j : ℕ) (k : Int64) mqttPayload topic request responseMap text,
    Requests events i k.toInt mqttPayload topic request → i < j →
    events[j]? = some (.message text) →
    PrintableMap responseMap → NotBefore responseMap → Followed responseMap text →
    valueAt responseMap routerKey = .str (routerId mgrId.toInt k.toInt) →
    Sent responseMap text →
    ∃ t object, effects[j]? = some (.publish topic t) ∧ unmarshalMap text = some object ∧
      unmarshalMap t = some (object.delete routerKey)
  /-- So is the request itself where vissv2Receiver takes it. -/
  returns : ∀ (i j : ℕ) (k : Int64) mqttPayload topic request members,
    Requests events i k.toInt mqttPayload topic request → i < j →
    mqttRequest mqttPayload = .obj members →
    events[j]? = some (.message (addRoutingInfoAndForward request mgrId.toInt k.toInt)) →
    ∃ rest, request = 123 :: rest ∧
      effects[j]? = some (.publish topic (123 :: 32 :: 32 :: rest))

end Responses

/-- A request and its response. -/
def exchange : List Event :=
  [.payload (str (
     "\x7b\"topic\":\"T1\",\"request\":\x7b\"action\":\"get\",\"path\":\"Vehicle.Speed\"\x7d\x7d")),
   .message (str "\x7b\"RouterId\":\"2?0\",\"action\":\"get\",\"requestId\":\"8\"\x7d")]

end VissServer.MqttMgr
