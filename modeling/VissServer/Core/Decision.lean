import Mathlib.Data.List.Perm.Basic
import VissServer.Core.Requests

/-!
The access-control decision of issueServiceRequest: which of the requests that search the
tree are sent on to the service manager.
-/
namespace VissServer.Core

open Go Utils

/-- Read-write before write-only and consent before no consent, in either order. -/
theorem getMaxValidation_comm (a b c : ℤ) :
    getMaxValidation a (getMaxValidation b c) = getMaxValidation b (getMaxValidation a c) := by
  have h : ∀ i j k : Fin 5, validationMatrix i (translateToMatrixIndex (validationMatrix j k)) =
      validationMatrix j (translateToMatrixIndex (validationMatrix i k)) := by decide
  exact h _ _ _

theorem getMaxValidation_mod (a b : ℤ) :
    getMaxValidation a b % 10 = 0 ∨ getMaxValidation a b % 10 = 1 ∨
      getMaxValidation a b % 10 = 2 := by
  have h : ∀ i j : Fin 5, validationMatrix i j % 10 = 0 ∨ validationMatrix i j % 10 = 1 ∨
      validationMatrix i j % 10 = 2 := by decide
  exact h _ _

namespace Found

variable {found found' : Found}

theorem ne_nil_of_totalMatches (h : found.totalMatches ≠ 0) : found ≠ [] := by
  rintro rfl
  exact h rfl

theorem maxValidation_mod (h : found ≠ []) :
    found.maxValidation % 10 = 0 ∨ found.maxValidation % 10 = 1 ∨
      found.maxValidation % 10 = 2 := by
  induction found using List.reverseRecOn with
  | nil => exact absurd rfl h
  | append_singleton found r _ =>
    rw [maxValidation, List.foldl_append]
    exact getMaxValidation_mod _ _

/-- The same searches in another order, each with its matches in another order. -/
def Reordered (found found' : Found) : Prop :=
  ∃ between : Found, found.Perm between ∧
    List.Forall₂ (fun r r' => r.1.Perm r'.1 ∧ r.2 = r'.2) between found'

theorem Reordered.maxValidation (h : found.Reordered found') :
    found.maxValidation = found'.maxValidation := by
  obtain ⟨between, hperm, hforall⟩ := h
  have hbetween : found.maxValidation = between.maxValidation := by
    apply hperm.foldl_eq'
    intro r _ r' _ maxValidation
    exact getMaxValidation_comm r'.2 r.2 maxValidation
  rw [hbetween, Found.maxValidation, Found.maxValidation]
  clear hbetween hperm
  generalize (-1 : ℤ) = start
  induction hforall generalizing start with
  | nil => rfl
  | cons hr _ ih =>
    rw [List.foldl_cons, List.foldl_cons, hr.2]
    exact ih _

theorem Reordered.totalMatches (h : found.Reordered found') :
    found.totalMatches = found'.totalMatches := by
  obtain ⟨between, hperm, hforall⟩ := h
  unfold Found.totalMatches
  rw [(hperm.map _).sum_nat]
  clear hperm
  induction hforall with
  | nil => rfl
  | cons hr _ ih =>
    rw [List.map_cons, List.map_cons, List.sum_cons, List.sum_cons, hr.1.length_eq, ih]

/-- Every match adds a quoted path and a separator. -/
theorem totalMatches_le_length (found : Found) : 4 * found.totalMatches ≤
    (found.flatMap fun r => r.1.flatMap fun data =>
      str "\"" ++ pathOf data.nodePath ++ str "\", ").length := by
  have hquote : (str "\"").length = 1 := by decide
  have hseparator : (str "\", ").length = 3 := by decide
  have hmatches : ∀ matched : List SearchData, 4 * matched.length ≤ (matched.flatMap fun data =>
      str "\"" ++ pathOf data.nodePath ++ str "\", ").length := by
    intro matched
    induction matched with
    | nil => exact Nat.zero_le _
    | cons data matched ih =>
      simp only [List.flatMap_cons, List.length_append, List.length_cons]
      omega
  unfold totalMatches
  induction found with
  | nil => exact Nat.zero_le _
  | cons r found ih =>
    have hr := hmatches r.1
    simp only [List.flatMap_cons, List.length_append, List.map_cons, List.sum_cons] at ih hr ⊢
    omega

theorem paths_ne_none (h : found.totalMatches ≠ 0) : found.paths ≠ none := by
  have hlength := totalMatches_le_length found
  unfold paths
  generalize (found.flatMap fun r => r.1.flatMap fun data =>
    str "\"" ++ pathOf data.nodePath ++ str "\", ") = text at hlength ⊢
  have hslice : slice text 0 (text.length - 2) = some (text.take (text.length - 2)) := by
    have hlow : (text.length - 2 : ℤ).toNat = text.length - 2 := by omega
    rw [slice, if_pos (by omega), hlow]
    rfl
  simp only [Option.bind_eq_bind, hslice, Option.bind_some]
  split
  · rw [slice, if_pos (by rw [List.length_take]; omega)]
    simp
  · simp

end Found

/-- The paths that issueServiceRequest searches for, or the reply that a filter leads to. -/
def resolve (cfg : Config) (m : Moment) (requestMap : GoMap Json) : MayPanic Scan := do
  let rootPath ← asString (valueAt requestMap (str "path"))
  let filterList :=
    if isNull (valueAt requestMap (str "filter")) then []
    else unpackFilter m.range (valueAt requestMap (str "filter"))
  match ← scanFilters cfg m requestMap rootPath filterList with
  | .inr reply => some (.inr reply)
  | .inl [] => some (.inl [rootPath])
  | .inl searchPath => some (.inl searchPath)

/-- What the tree search reports for the search paths. -/
def searchAll (cfg : Config) (searchPath : List GoString) : Found :=
  searchPath.map fun path => searchTree cfg path true true []

def Forwards (cfg : Config) (m : Moment) (requestMap : GoMap Json) (action : GoString) : Prop :=
  ∃ message, issueServiceRequest cfg m requestMap action = some (.service message)

/-- A request of external origin that no filter answers, with its search paths. -/
structure Searches (cfg : Config) (m : Moment) (requestMap : GoMap Json) (action : GoString)
    (searchPath : List GoString) : Prop where
  action_mem : action = str "get" ∨ action = str "set" ∨ action = str "subscribe"
  external : asString (valueAt requestMap (str "origin")) ≠ some (str "internal")
  resolved : resolve cfg m requestMap = some (.inl searchPath)
  actuator : action = str "set" → (searchAll cfg searchPath).totalMatches ≠ 0 →
    (searchAll cfg searchPath).nodeType = some ACTUATOR

/-- verifyToken accepts the token of the request for all matched paths. -/
def Verified (m : Moment) (requestMap : GoMap Json) (action : GoString) (found : Found) : Prop :=
  ∃ token paths handle gatingId, valueAt requestMap (str "authorization") = .str token ∧
    found.paths = some paths ∧
    verifyToken m token action paths found.maxValidation = some (0, handle, gatingId)

/-- The access-control rule of the request. -/
def Admitted (m : Moment) (requestMap : GoMap Json) (action : GoString) (found : Found) : Prop :=
  found.totalMatches ≠ 0 ∧
    (found.maxValidation % 10 = 0 ∨ (found.maxValidation % 10 = 1 ∧ action ≠ str "set") ∨
      Verified m requestMap action found)

section Decision

variable {cfg : Config} {m : Moment} {requestMap : GoMap Json} {action : GoString}
  {searchPath : List GoString}

theorem Searches.issue_eq (h : Searches cfg m requestMap action searchPath) :
    issueServiceRequest cfg m requestMap action = issueSearch cfg m requestMap action searchPath := by
  have hinternal : ¬ (action = str "internal-killsubscriptions" ∨
      action = str "internal-cancelsubscription") := by
    rcases h.action_mem with rfl | rfl | rfl <;> decide
  have hresolved := h.resolved
  simp only [resolve, Option.bind_eq_bind, Option.bind_eq_some_iff] at hresolved
  obtain ⟨rootPath, hroot, scan, hscan, hresolved⟩ := hresolved
  rw [issueServiceRequest, if_neg hinternal, hroot]
  simp only [Option.bind_eq_bind, Option.bind_some, hscan]
  split at hresolved
  · simp at hresolved
  · rw [← Sum.inl.inj (Option.some.inj hresolved)]
  · next searched hne =>
    have hsame := Sum.inl.inj (Option.some.inj hresolved)
    subst hsame
    cases searched with
    | nil => exact absurd rfl hne
    | cons path searched => rfl

/-- Behind the search, the type of the node of a set request is no obstacle. -/
theorem Searches.issueSearch_eq (h : Searches cfg m requestMap action searchPath)
    (hmatches : (searchAll cfg searchPath).totalMatches ≠ 0) :
    issueSearch cfg m requestMap action searchPath =
      issueFound m requestMap action (searchAll cfg searchPath) := by
  unfold issueSearch
  rw [← searchAll]
  dsimp only
  rw [if_neg hmatches]
  split
  · next hset =>
    rw [h.actuator hset hmatches]
    simp
  · rfl

theorem forwards_of_totalMatches_zero (h : Searches cfg m requestMap action searchPath)
    (hmatches : (searchAll cfg searchPath).totalMatches = 0) :
    ¬ Forwards cfg m requestMap action := by
  rintro ⟨message, hmessage⟩
  rw [h.issue_eq, issueSearch, ← searchAll, if_pos hmatches] at hmessage
  simp at hmessage

theorem checkToken_eq_zero_iff {paths : GoString} {maxValidation : ℤ} :
    (∃ handle gatingId, checkToken m requestMap action paths maxValidation =
      some (0, handle, gatingId)) ↔
    (valueAt requestMap (str "authorization") ≠ .null ∧
      ¬ (action = str "set" ∨ maxValidation % 10 = 2)) ∨
    ((action = str "set" ∨ maxValidation % 10 = 2) ∧
      ∃ token handle gatingId, valueAt requestMap (str "authorization") = .str token ∧
        verifyToken m token action paths maxValidation = some (0, handle, gatingId)) := by
  unfold checkToken
  by_cases hverify : action = str "set" ∨ maxValidation % 10 = 2
  · cases valueAt requestMap (str "authorization") <;> simp [hverify, asString]
  · cases valueAt requestMap (str "authorization") <;> simp [hverify]

/-- What the code decides about the nodes that are found. -/
theorem issueFound_service_iff {found : Found} (hmatches : found.totalMatches ≠ 0)
    (hexternal : asString (valueAt requestMap (str "origin")) ≠ some (str "internal")) :
    (∃ message, issueFound m requestMap action found = some (.service message)) ↔
      found.maxValidation % 10 = 0 ∨
        (found.maxValidation % 10 = 1 ∧ action ≠ str "set" ∧
          valueAt requestMap (str "authorization") ≠ .null) ∨
        Verified m requestMap action found := by
  obtain ⟨paths, hpaths⟩ := Option.ne_none_iff_exists'.mp (Found.paths_ne_none hmatches)
  have hrequired : requiredValidation requestMap found = found.maxValidation := by
    rw [requiredValidation, if_neg hexternal]
  simp only [issueFound, Option.bind_eq_bind, hpaths, Option.bind_some, hrequired]
  by_cases hzero : found.maxValidation % 10 = 0
  · simp [hzero]
  have hmod : found.maxValidation % 10 = 1 ∨ found.maxValidation % 10 = 2 :=
    (Found.maxValidation_mod (Found.ne_nil_of_totalMatches hmatches)).resolve_left hzero
  simp only [if_pos hmod, hzero, if_false, false_or]
  have hcheck : (∃ message, (checkToken m requestMap action paths
      found.maxValidation).bind (fun r => if r.1 ≠ 0 then
        some (Reply.error requestMap 3 (getTokenErrorMessage r.1))
      else some (.service (finalizeMessage (serviceMap requestMap paths r.2.1 r.2.2)))) =
        some (.service message)) ↔ ∃ handle gatingId, checkToken m requestMap action paths
      found.maxValidation = some (0, handle, gatingId) := by
    cases checkToken m requestMap action paths found.maxValidation with
    | none => simp
    | some r =>
      obtain ⟨errorCode, handle, gatingId⟩ := r
      by_cases hcode : errorCode = 0 <;> simp [hcode]
  rw [hcheck, checkToken_eq_zero_iff]
  constructor
  · rintro (⟨htoken, hno⟩ | ⟨-, token, handle, gatingId, htoken, hverify⟩)
    · rw [not_or] at hno
      exact .inl ⟨hmod.resolve_right hno.2, hno.1, htoken⟩
    · exact .inr ⟨token, paths, handle, gatingId, htoken, hpaths, hverify⟩
  · rintro (⟨hone, hset, htoken⟩ | ⟨token, paths', handle, gatingId, htoken, hpaths', hverify⟩)
    · refine .inl ⟨htoken, ?_⟩
      rw [not_or]
      exact ⟨hset, by omega⟩
    · rw [hpaths] at hpaths'
      obtain rfl := Option.some.inj hpaths'
      by_cases hneeded : action = str "set" ∨ found.maxValidation % 10 = 2
      · exact .inr ⟨hneeded, token, handle, gatingId, htoken, hverify⟩
      · exact .inl ⟨by simp [htoken], hneeded⟩

/-- What the code decides about a request. -/
theorem forwards_iff (h : Searches cfg m requestMap action searchPath) :
    Forwards cfg m requestMap action ↔ (searchAll cfg searchPath).totalMatches ≠ 0 ∧
      ((searchAll cfg searchPath).maxValidation % 10 = 0 ∨
        ((searchAll cfg searchPath).maxValidation % 10 = 1 ∧ action ≠ str "set" ∧
          valueAt requestMap (str "authorization") ≠ .null) ∨
        Verified m requestMap action (searchAll cfg searchPath)) := by
  by_cases hmatches : (searchAll cfg searchPath).totalMatches = 0
  · simp [forwards_of_totalMatches_zero h hmatches, hmatches]
  unfold Forwards
  rw [h.issue_eq, h.issueSearch_eq hmatches, issueFound_service_iff hmatches h.external,
    and_iff_right hmatches]

/-- A request that needs no token, and has no authorization member. -/
def WriteOnlyWithoutToken (requestMap : GoMap Json) (action : GoString) (found : Found) : Prop :=
  found.totalMatches ≠ 0 ∧ found.maxValidation % 10 = 1 ∧ action ≠ str "set" ∧
    valueAt requestMap (str "authorization") = .null

/-- The same request with its search paths, and their matches, in another order. -/
structure SameRequest (cfg cfg' : Config) (requestMap requestMap' : GoMap Json)
    (searchPath searchPath' : List GoString) : Prop where
  authorization : valueAt requestMap' (str "authorization") =
    valueAt requestMap (str "authorization")
  reordered : (searchAll cfg searchPath).Reordered (searchAll cfg' searchPath')

/-- The decision where the access token server gives the same answer. -/
theorem forwards_reordered {cfg' : Config} {requestMap' : GoMap Json} {searchPath' : List GoString}
    (h : Searches cfg m requestMap action searchPath)
    (h' : Searches cfg' m requestMap' action searchPath')
    (hsame : SameRequest cfg cfg' requestMap requestMap' searchPath searchPath')
    (hverified : Verified m requestMap action (searchAll cfg searchPath) ↔
      Verified m requestMap' action (searchAll cfg' searchPath')) :
    Forwards cfg m requestMap action ↔ Forwards cfg' m requestMap' action := by
  rw [forwards_iff h, forwards_iff h', hverified, hsame.authorization,
    hsame.reordered.maxValidation, hsame.reordered.totalMatches]

end Decision

/-- The decision follows the access-control rule, in every order of the search paths and of
their matches, exactly where the request does not lack a token that it does not need. -/
theorem access_decision_iff (cfg : Config) (m : Moment) (requestMap : GoMap Json)
    (action : GoString) (searchPath : List GoString)
    (h : Searches cfg m requestMap action searchPath) :
    ((Forwards cfg m requestMap action ↔
        Admitted m requestMap action (searchAll cfg searchPath)) ∧
      ∀ cfg' requestMap' searchPath', Searches cfg' m requestMap' action searchPath' →
        SameRequest cfg cfg' requestMap requestMap' searchPath searchPath' →
        (Verified m requestMap action (searchAll cfg searchPath) ↔
          Verified m requestMap' action (searchAll cfg' searchPath')) →
        (Forwards cfg m requestMap action ↔ Forwards cfg' m requestMap' action)) ↔
    ¬ WriteOnlyWithoutToken requestMap action (searchAll cfg searchPath) := by
  have horder : ∀ cfg' requestMap' searchPath', Searches cfg' m requestMap' action searchPath' →
      SameRequest cfg cfg' requestMap requestMap' searchPath searchPath' →
      (Verified m requestMap action (searchAll cfg searchPath) ↔
        Verified m requestMap' action (searchAll cfg' searchPath')) →
      (Forwards cfg m requestMap action ↔ Forwards cfg' m requestMap' action) :=
    fun cfg' requestMap' searchPath' h' hsame hverified =>
      forwards_reordered h h' hsame hverified
  rw [and_iff_left horder, forwards_iff h]
  unfold Admitted WriteOnlyWithoutToken
  constructor
  · rintro hiff ⟨hmatches, hone, hset, htoken⟩
    obtain ⟨-, hzero | ⟨-, -, hsome⟩ | ⟨token, -, -, -, hstr, -⟩⟩ :=
      hiff.mpr ⟨hmatches, .inr (.inl ⟨hone, hset⟩)⟩
    · omega
    · exact hsome htoken
    · rw [htoken] at hstr
      simp at hstr
  · intro hno
    refine and_congr_right fun hmatches => or_congr_right (or_congr_left ?_)
    constructor
    · rintro ⟨hone, hset, -⟩
      exact ⟨hone, hset⟩
    · rintro ⟨hone, hset⟩
      exact ⟨hone, hset, fun htoken => hno ⟨hmatches, hone, hset, htoken⟩⟩

/-- A tree with one sensor, which needs a token for writing only. -/
def writeOnlySensor : Config where
  searchNodes path _ _ _ :=
    if path = str "Vehicle.Speed" then
      ([⟨str "Vehicle.Speed", .mk (str "Speed") 1 [] (str "float") []⟩], 1)
    else ([], -1)

/-- No server answers. -/
def unanswered : Moment where
  rfcTime := str "2024-05-01T08:00:00Z"
  range := id
  postReply _ := none
  atsReply _ := []

def getSpeed (authorization : Json) : GoMap Json := GoMap.ofMembers
  [(str "action", .str (str "get")), (str "path", .str (str "Vehicle.Speed")),
    (str "authorization", authorization)]

theorem searches_getSpeed (authorization : Json) :
    Searches writeOnlySensor unanswered (getSpeed authorization) (str "get")
      [str "Vehicle.Speed"] where
  action_mem := .inl rfl
  external := by
    have horigin : asString (valueAt (getSpeed authorization) (str "origin")) = none := rfl
    rw [horigin]
    simp
  resolved := rfl
  actuator h := absurd h (by decide)

theorem forwards_getSpeed_with_token :
    Forwards writeOnlySensor unanswered (getSpeed (.str (str "any"))) (str "get") := by
  have htoken : ¬ WriteOnlyWithoutToken (getSpeed (.str (str "any"))) (str "get")
      (searchAll writeOnlySensor [str "Vehicle.Speed"]) := by
    rintro ⟨-, -, -, hnull⟩
    have hstr : valueAt (getSpeed (.str (str "any"))) (str "authorization") = .str (str "any") := rfl
    rw [hstr] at hnull
    simp at hnull
  exact ((access_decision_iff writeOnlySensor unanswered _ _ _ (searches_getSpeed _)).mpr
    htoken).1.mpr ⟨by decide, .inr (.inl ⟨by decide, by decide⟩)⟩

/-- A get of a node that needs a token for writing only is rejected without one. -/
theorem get_rejected_without_token : ¬ ∀ cfg m requestMap action searchPath,
    Searches cfg m requestMap action searchPath →
    (Forwards cfg m requestMap action ↔
      Admitted m requestMap action (searchAll cfg searchPath)) := by
  intro hall
  have hadmitted : Admitted unanswered (getSpeed .null) (str "get")
      (searchAll writeOnlySensor [str "Vehicle.Speed"]) :=
    ⟨by decide, .inr (.inl ⟨by decide, by decide⟩)⟩
  have hforwards := (hall _ _ _ _ _ (searches_getSpeed .null)).mpr hadmitted
  obtain ⟨-, hzero | ⟨-, -, hsome⟩ | ⟨token, -, -, -, hstr, -⟩⟩ :=
    (forwards_iff (searches_getSpeed .null)).mp hforwards
  · exact absurd hzero (by decide)
  · exact hsome rfl
  · have hnull : valueAt (getSpeed .null) (str "authorization") = .null := rfl
    rw [hnull] at hstr
    simp at hstr

end VissServer.Core
