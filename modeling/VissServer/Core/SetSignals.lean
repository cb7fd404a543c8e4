import VissServer.Core.Completion
import VissServer.Core.TokenRequests
import VissServer.ServiceMgr.VehicleData

/-!
The way of a set request from the core to the signal: the path that the core finds and quotes
into the message for the service manager, and what the service manager writes for it into the
state storage or sends to the feeder.
-/
namespace VissServer.Core

open Go Utils ServiceMgr Feeder

/-- The nodes of the tree have paths of UTF-8 text; golib reads them from the VSS tree. -/
def Config.TextPaths (cfg : Config) : Prop :=
  ∀ path anyDepth leafNodesOnly noScopeList,
    ∀ data ∈ (cfg.searchNodes path anyDepth leafNodesOnly noScopeList).1,
      ValidString (pathOf data.nodePath)

/-- The nodes that are found for a checked request without a filter. -/
def foundFor (cfg : Config) (request : GoString) : Found :=
  searchAll cfg [urlToPath (pathText request)]

section Message

variable {cfg : Config} {m : Core.Moment} {request message : GoString}

theorem Config.TextPaths.nodePaths (h : cfg.TextPaths) :
    ∀ path ∈ (foundFor cfg request).nodePaths, ValidString path := by
  intro path hpath
  simp only [foundFor, searchAll, Found.nodePaths, List.map_cons, List.map_nil,
    List.flatMap_cons, List.flatMap_nil, List.append_nil, List.mem_map] at hpath
  obtain ⟨data, hdata, rfl⟩ := hpath
  unfold searchTree at hdata
  split at hdata
  · simp at hdata
  · exact h _ _ _ _ data hdata

/-- A set request that passes the checks is decoded, and has no filter. -/
theorem Searched.set_decoded (h : Searched request) (hset : actionText request = str "set") :
    decodeMap request = some (requestMapOf request) ∧
      isNull (valueAt (requestMapOf request) (str "filter")) = true := by
  constructor
  · cases hmap : mapRequest request with
    | none =>
      rw [actionText, requestMapOf, hmap] at hset
      exact absurd hset (by decide)
    | some requestMap =>
      rw [requestMapOf, hmap, Option.getD_some]
      exact hmap
  · by_contra hfilter
    exact h.2.1 ⟨hset, hfilter⟩

/-- The message that is sent on for a set request holds the paths that were found. -/
theorem issueServiceRequest_set (hsearched : Searched request)
    (hset : actionText request = str "set")
    (h : issueServiceRequest cfg m (dotted request) (str "set") = some (.service message)) :
    (foundFor cfg request).totalMatches ≠ 0 ∧
    ∃ paths tokenHandle gatingId, (foundFor cfg request).paths = some paths ∧
      message = finalizeMessage (serviceMap (dotted request) paths tokenHandle gatingId) := by
  have hpath : valueAt (dotted request) (str "path") = .str (urlToPath (pathText request)) := by
    rw [dotted, valueAt_set, if_pos rfl]
  have hfilter : decidingFilter m (dotted request) = none := by
    have hmember : valueAt (dotted request) (str "filter") =
        valueAt (requestMapOf request) (str "filter") := by
      rw [dotted, valueAt_set, if_neg (by decide)]
    rw [decidingFilter, hmember, if_pos (hsearched.set_decoded hset).2]
  rw [issueServiceRequest_eq (by decide) hpath, hfilter] at h
  exact issueSearch_service h

/-- The message that is read by the service manager: the paths that were found, and the value
of the request. -/
theorem serviceMap_members (hsearched : Searched request)
    (hset : actionText request = str "set") (paths tokenHandle gatingId : GoString) :
    let requestMap := requestMapOf
      (finalizeMessage (serviceMap (dotted request) paths tokenHandle gatingId))
    valueAt requestMap (str "path") = .str (sanitizeString paths) ∧
      asString (valueAt requestMap (str "value")) =
        asString (valueAt (requestMapOf request) (str "value")) := by
  dsimp only
  have hdecode := (hsearched.set_decoded hset).1
  have hdotted : Sendable (requestMapOf request) (dotted request) :=
    (Sendable.refl hdecode).set (by decide) _
  have hsendable := hdotted.serviceMap paths tokenHandle gatingId
  constructor
  · obtain ⟨decoded, hdecoded, hvalues⟩ :=
      (hsendable.printable.delete (str "origin")).decode_marshal
    have hmap : requestMapOf (finalizeMessage
        (serviceMap (dotted request) paths tokenHandle gatingId)) = decoded := by
      rw [requestMapOf, mapRequest, finalizeMessage, hdecoded, Option.getD_some]
    have hpath : valueAt (serviceMap (dotted request) paths tokenHandle gatingId) (str "path") =
        .str paths := by
      unfold serviceMap
      dsimp only
      split <;> split <;> simp [valueAt_set, show str "path" ≠ str "handle" by decide,
        show str "path" ≠ str "gatingId" by decide]
    rw [hmap, hvalues, valueAt_delete, if_neg (by decide), hpath]
    rfl
  · exact asString_finalizeMessage hdecode hsendable.printable (by decide)
      (hsendable.same _ (by decide))

/-- A list of paths is recognized by its bracket. -/
theorem contains_bracket (s : GoString) : contains (sanitizeString (91 :: s)) (str "[") = true := by
  have hrune : IsRune [91] := .one rfl
  have hsanitize : sanitizeString (91 :: s) = 91 :: sanitizeString s := by
    have hsegments := segments_append hrune s
    rw [List.singleton_append] at hsegments
    rw [sanitizeString, hsegments, List.flatMap_cons, sanitizeSegment,
      if_neg hrune.runeLen_ne_zero]
    rfl
  rw [hsanitize]
  rfl

/-- The service manager writes for a set request with a single path, which is the one that was
found, and with the value of the request. -/
theorem setCall_message (hsearched : Searched request) (hset : actionText request = str "set")
    (hpaths : cfg.TextPaths) {path value value' : GoString}
    (hvalue : valueAt (requestMapOf request) (str "value") = .str value)
    (h : issueServiceRequest cfg m (dotted request) (str "set") = some (.service message))
    (hcall : setCall (requestMapOf message) = some (some (path, value'))) :
    (foundFor cfg request).nodePaths = [path] ∧ value' = value := by
  obtain ⟨hmatches, paths, tokenHandle, gatingId, hfound, rfl⟩ :=
    issueServiceRequest_set hsearched hset h
  obtain ⟨hpath, hvalue'⟩ := serviceMap_members hsearched hset paths tokenHandle gatingId
  rw [hvalue, asString_eq_some.mpr rfl] at hvalue'
  rw [← Found.length_nodePaths] at hmatches
  obtain ⟨found, others, hnodes⟩ :=
    List.exists_cons_of_ne_nil (List.ne_nil_of_length_pos (Nat.pos_of_ne_zero hmatches))
  rw [Found.paths_eq found others hnodes] at hfound
  obtain rfl := Option.some.inj hfound
  simp only [setCall, asString_eq_some.mpr hpath, hvalue', Option.bind_eq_bind,
    Option.bind_some] at hcall
  by_cases hothers : others = []
  · subst hothers
    rw [if_pos rfl] at hcall
    split at hcall
    · simp at hcall
    · obtain ⟨rfl, rfl⟩ := Prod.mk.inj (Option.some.inj (Option.some.inj hcall))
      have hvalid := hpaths.nodePaths found (hnodes ▸ List.mem_cons_self)
      rw [hvalid.sanitize]
      exact ⟨hnodes, rfl⟩
  · rw [if_neg hothers, contains_bracket, if_pos rfl] at hcall
    simp at hcall

end Message

/-! ## The record or message -/

section Writing

variable {b : Backend} {path value : GoString}

/-- The addressee and the contents of what is written: the row of the path that is read for it,
the domain data that the feeder splits from the message, the measurement that is read for the
path. -/
def Addresses (path value ts : GoString) : Written → Prop
  | .row path' dValue dTs => path' = path ∧ dValue = value ∧ dTs = ts
  | .message text => splitToDomainDataAndTs text = some (⟨path, value⟩, ts)
  | .record vssKey vssValue => vssKey = str "`" ++ path ++ str "`" ∧ vssValue = value

/-- The call returns, and what it has written, if anything, reaches the signal. -/
def Reaches (path value : GoString) (result : MayPanic (Option Written × GoString)) : Prop :=
  ∃ written ts, result = some (written, ts) ∧ ∀ w ∈ written, Addresses path value ts w

/-- Nothing is written for the path: there is no storage, or it does not answer, or the feeder
cannot be reached. -/
def Idle (b : Backend) (path : GoString) : Prop :=
  match b.stateDbType with
  | .sqlite => b.storage.reachable = false
  | .redis => b.udsConn path = false ∨ b.udsWrite = false
  | .apacheIotdb => b.storage.reachable = false
  | .none => True

/-- The message to the feeder keeps path and value, the record always does, the row never. -/
def Carries (b : Backend) (path value : GoString) : Prop :=
  Idle b path ∨ (b.stateDbType = .redis ∧ IsLiteral path ∧ IsLiteral value) ∨
    b.stateDbType = .apacheIotdb

/-- A path without its first and its last byte is not the path. -/
theorem slice_path_ne {s : GoString} : slice path 1 (path.length - 1) = some s → s ≠ path := by
  intro h hs
  subst hs
  unfold slice at h
  split at h
  · next hbounds =>
    have hlength := congrArg List.length (Option.some.inj h)
    rw [List.length_drop, List.length_take] at hlength
    omega
  · simp at h

theorem setMessage_text (path value ts : GoString) :
    str "\x7b\"path\":\"" ++ path ++ str "\", \"dp\":\x7b\"value\":\"" ++ value ++
      str "\", \"ts\":\"" ++ ts ++ str "\"\x7d\x7d" =
    rawText (str " ") (setMessage path value ts) := by
  have hopen : str "\x7b\"path\":\"" = 123 :: 34 :: (str "path" ++ [34, 58, 34]) := rfl
  have hdp : str "\", \"dp\":\x7b\"value\":\"" = 34 :: 44 :: (str " " ++ 34 :: (str "dp" ++
      34 :: 58 :: 123 :: 34 :: (str "value" ++ [34, 58, 34]))) := rfl
  have hts : str "\", \"ts\":\"" = 34 :: 44 :: (str " " ++ 34 :: (str "ts" ++ [34, 58, 34])) := rfl
  have hend : str "\"\x7d\x7d" = [34, 125, 125] := rfl
  rw [hopen, hdp, hts, hend]
  simp [setMessage, rawText, rawMembers]

theorem reaches_none (ts : GoString) : Reaches path value (some (none, ts)) :=
  ⟨none, ts, rfl, by simp⟩

theorem reaches_some {w : Written} {ts : GoString} :
    Reaches path value (some (some w, ts)) ↔ Addresses path value ts w := by
  constructor
  · intro h
    obtain ⟨written, ts', heq, hw⟩ := h
    obtain ⟨rfl, rfl⟩ := Prod.mk.inj (Option.some.inj heq)
    exact hw w rfl
  · intro h
    refine ⟨some w, ts, rfl, fun w' hw' => ?_⟩
    obtain rfl := Option.some.inj hw'
    exact h

/-- What setVehicleData writes reaches the signal if and only if the backend carries it. -/
theorem setVehicleData_reaches_iff :
    Reaches path value (setVehicleData b path value) ↔ Carries b path value := by
  unfold setVehicleData Carries Idle
  cases hdb : b.stateDbType with
  | sqlite =>
    dsimp only
    by_cases hreachable : b.storage.reachable = true
    · have hpanic : ¬ Reaches path value none := fun ⟨_, _, h, _⟩ => by simp at h
      rw [if_pos hreachable, hreachable]
      cases hslice : slice path 1 (path.length - 1) with
      | none => simpa using hpanic
      | some s => simp [reaches_some, Addresses, slice_path_ne hslice]
    · rw [if_neg hreachable]
      rw [Bool.not_eq_true] at hreachable
      simp [reaches_none, hreachable]
  | redis =>
    dsimp only
    by_cases hconn : b.udsConn path = true
    · by_cases hwrite : b.udsWrite = true
      · rw [if_pos hconn, if_pos hwrite, reaches_some, Addresses, setMessage_text,
          splitToDomainDataAndTs_iff b.rfcTime.isLiteral b.rfcTime.ne_nil]
        simp [hconn, hwrite]
      · rw [if_pos hconn, if_neg hwrite]
        rw [Bool.not_eq_true] at hwrite
        simp [reaches_none, hwrite]
    · rw [if_neg hconn]
      rw [Bool.not_eq_true] at hconn
      simp [reaches_none, hconn]
  | apacheIotdb =>
    dsimp only
    split
    · simp [reaches_some, Addresses]
    · simp [reaches_none]
  | none => simp [reaches_none]

end Writing

section Accepted

/-- A set request that the core accepts, with what the service manager reads from it. -/
structure AcceptedSet (cfg : Config) (m : Core.Moment) (request value path value' : GoString) :
    Prop where
  searched : Searched request
  action : actionText request = str "set"
  value : valueAt (requestMapOf request) (str "value") = .str value
  accepted : ∃ message, issueServiceRequest cfg m (dotted request) (str "set") =
      some (.service message) ∧
    setCall (requestMapOf message) = some (some (path, value'))

/-- What the service manager writes for an accepted set request reaches the signal that the
core has found for it, with the value of the request, if and only if the backend carries it. -/
theorem set_reaches_signal_iff (cfg : Config) (m : Core.Moment) (b : Backend)
    (hpaths : cfg.TextPaths) (request value path value' : GoString)
    (h : AcceptedSet cfg m request value path value') :
    ∃ leaf, (foundFor cfg request).nodePaths = [leaf] ∧
      (Reaches leaf value (setVehicleData b path value') ↔ Carries b leaf value) := by
  obtain ⟨message, hissue, hcall⟩ := h.accepted
  obtain ⟨hnodes, rfl⟩ := setCall_message h.searched h.action hpaths h.value hissue hcall
  exact ⟨path, hnodes, setVehicleData_reaches_iff⟩

/-- A tree with one actuator. -/
def doorActuator : Config where
  searchNodes path _ _ _ :=
    if path = str "Vehicle.IsLocked" then
      ([⟨str "Vehicle.IsLocked", .mk (str "IsLocked") 2 [] (str "boolean") []⟩], 0)
    else ([], -1)

theorem doorActuator_textPaths : doorActuator.TextPaths := by
  intro path anyDepth leafNodesOnly noScopeList data hdata
  unfold doorActuator at hdata
  dsimp only at hdata
  split at hdata
  · obtain rfl := List.mem_singleton.mp hdata
    exact (isLiteral_of_all (by decide)).valid
  · simp at hdata

def lockRequest : GoString :=
  str "\x7b\"action\":\"set\",\"path\":\"Vehicle/IsLocked\",\"value\":\"true\"\x7d"

theorem lockRequest_accepted : AcceptedSet doorActuator unanswered lockRequest (str "true")
    (str "Vehicle.IsLocked") (str "true") where
  searched := by
    have haccepted : Accepted lockRequest := by decide +kernel
    have hfilter : isNull (valueAt (requestMapOf lockRequest) (str "filter")) = true := by
      decide +kernel
    have haction : actionText lockRequest = str "set" := by decide +kernel
    refine ⟨haccepted, fun h => h.2 hfilter, fun h => ?_⟩
    rw [PassedOn, haction] at h
    exact absurd h (by decide)
  action := by decide +kernel
  value := asString_eq_some.mp (by decide +kernel)
  accepted := by
    have hcall : ((issueServiceRequest doorActuator unanswered (dotted lockRequest)
        (str "set")).bind fun reply => match reply with
          | .service message => setCall (requestMapOf message)
          | _ => none) = some (some (str "Vehicle.IsLocked", str "true")) := by decide +kernel
    obtain ⟨reply, hissue, hcall⟩ := Option.bind_eq_some_iff.mp hcall
    cases reply with
    | service message => exact ⟨message, hissue, hcall⟩
    | _ => simp at hcall

/-- The message to the feeder reaches the actuator. -/
theorem lock_reaches_actuator : ∃ leaf,
    (foundFor doorActuator lockRequest).nodePaths = [leaf] ∧
      (Reaches leaf (str "true") (setVehicleData emptyRedis (str "Vehicle.IsLocked")
        (str "true")) ↔ Carries emptyRedis leaf (str "true")) :=
  set_reaches_signal_iff doorActuator unanswered emptyRedis doorActuator_textPaths lockRequest
    (str "true") (str "Vehicle.IsLocked") (str "true") lockRequest_accepted

/-- With sqlite the row of the path without its first and its last byte is updated. -/
theorem sqlite_set_misses_row : ¬ ∀ (cfg : Config) (m : Core.Moment) (b : Backend),
    cfg.TextPaths → ∀ request value path value', AcceptedSet cfg m request value path value' →
    ∃ leaf, (foundFor cfg request).nodePaths = [leaf] ∧
      Reaches leaf value (setVehicleData b path value') := by
  intro hall
  obtain ⟨leaf, hnodes, hreaches⟩ := hall doorActuator unanswered emptyRows
    doorActuator_textPaths lockRequest (str "true") (str "Vehicle.IsLocked") (str "true")
    lockRequest_accepted
  have hleaf : (foundFor doorActuator lockRequest).nodePaths = [str "Vehicle.IsLocked"] := by
    decide +kernel
  obtain rfl := List.singleton_inj.mp (hleaf.symm.trans hnodes)
  rw [setVehicleData_reaches_iff] at hreaches
  rcases hreaches with hidle | ⟨hredis, -⟩ | hiotdb
  · exact absurd (show emptyRows.storage.reachable = false from hidle) (by decide)
  · exact absurd hredis (by decide)
  · exact absurd hiotdb (by decide)

end Accepted

end VissServer.Core
