import VissServer.Core.Decision
import VissServer.Core.ErrorResponses
import VissServer.Utils.TokenClaims

/-!
Which messages of clients the core answers with an error response or sends on. The members
of a message can have any type, and the code asserts the types of some without a check.
-/
namespace VissServer.Core

open Go Utils ServiceMgr

/-- A member that is missing, null or a string. -/
def TextOrNull (j : Json) : Prop := j = .null ∨ ∃ v, j = .str v

/-- A reply of the access token server whose members verifyToken can read. -/
def ReadableReply (reply : GoString) : Prop :=
  ∀ bdy, unmarshalMap reply = some bdy →
    TextOrNull (valueAt bdy (str "validation")) ∧
    ∀ claim, valueAt bdy (str "validation") = .str claim → atoi claim = some 0 →
      TextOrNull (valueAt bdy (str "handle")) ∧ TextOrNull (valueAt bdy (str "gatingId"))

theorem textOrNull_str (v : GoString) : TextOrNull (.str v) := .inr ⟨v, rfl⟩

theorem textOrNull_of_isNull {j : Json} (h : isNull j = true) : TextOrNull j :=
  .inl (isNull_iff.mp h)

theorem asString_isSome_iff {j : Json} (h : ¬ isNull j = true) :
    (asString j).isSome ↔ TextOrNull j := by
  cases j <;> simp_all [asString, TextOrNull, isNull]

theorem replyMember_isSome_iff {bdy : GoMap Json} {k : GoString} :
    (replyMember bdy k).isSome ↔ TextOrNull (valueAt bdy k) := by
  unfold replyMember
  split
  · next hnull => simp [textOrNull_of_isNull hnull]
  · next hnull => exact asString_isSome_iff hnull

theorem verifyToken_isSome_iff {m : Moment} {token action paths : GoString} {validation : ℤ} :
    (verifyToken m token action paths validation).isSome ↔
      ReadableReply (m.atsReply (tokenRequest token action paths validation)) := by
  unfold verifyToken ReadableReply
  generalize m.atsReply (tokenRequest token action paths validation) = reply
  cases unmarshalMap reply with
  | none => simp
  | some bdy =>
    simp only [Option.some.injEq, forall_eq']
    split
    · next hnull =>
      rw [isNull_iff] at hnull
      simp [hnull, TextOrNull]
    · next hnull =>
      cases hclaim : asString (valueAt bdy (str "validation")) with
      | none =>
        have hno : ¬ TextOrNull (valueAt bdy (str "validation")) := by
          rw [← asString_isSome_iff hnull, hclaim]
          simp
        simp [hno]
      | some claim =>
        rw [asString_eq_some] at hclaim
        simp only [hclaim, textOrNull_str, Json.str.injEq, true_and, forall_eq',
          Option.bind_eq_bind, Option.bind_some]
        cases hcode : atoi claim with
        | none => simp
        | some code =>
          by_cases hzero : code = 0
          · subst hzero
            rw [← replyMember_isSome_iff, ← replyMember_isSome_iff]
            cases replyMember bdy (str "handle") <;> cases replyMember bdy (str "gatingId") <;>
              simp
          · simp [hzero]

section Search

variable {cfg : Config} {m : Moment} {requestMap : GoMap Json} {action : GoString}
  {found : Found} {searchPath : List GoString}

/-- The access token server is asked about the token of the request. -/
def AsksForToken (requestMap : GoMap Json) (action : GoString) (found : Found) : Prop :=
  asString (valueAt requestMap (str "origin")) ≠ some (str "internal") ∧
    (found.maxValidation % 10 = 2 ∨ (found.maxValidation % 10 = 1 ∧ action = str "set"))

/-- Where the access token server is asked, it answers with members that can be read. -/
def ReadableValidation (m : Moment) (requestMap : GoMap Json) (action : GoString)
    (found : Found) : Prop :=
  AsksForToken requestMap action found → ∀ token paths,
    valueAt requestMap (str "authorization") = .str token → found.paths = some paths →
      ReadableReply (m.atsReply (tokenRequest token action paths found.maxValidation))

/-- The rule by which a request for nodes that were found is sent on. -/
def Passes (m : Moment) (requestMap : GoMap Json) (action : GoString) (found : Found) : Prop :=
  asString (valueAt requestMap (str "origin")) = some (str "internal") ∨
    found.maxValidation % 10 = 0 ∨
    (found.maxValidation % 10 = 1 ∧ action ≠ str "set" ∧
      valueAt requestMap (str "authorization") ≠ .null) ∨
    Verified m requestMap action found

theorem checkToken_isSome_iff {paths : GoString} {maxValidation : ℤ} :
    (checkToken m requestMap action paths maxValidation).isSome ↔
      (action = str "set" ∨ maxValidation % 10 = 2 → ∀ token,
        valueAt requestMap (str "authorization") = .str token →
          ReadableReply (m.atsReply (tokenRequest token action paths maxValidation))) := by
  unfold checkToken
  by_cases hverify : action = str "set" ∨ maxValidation % 10 = 2
  · cases valueAt requestMap (str "authorization") <;>
      simp [hverify, asString, verifyToken_isSome_iff]
  · cases valueAt requestMap (str "authorization") <;> simp [hverify]

theorem issueFound_isSome_iff (hmatches : found.totalMatches ≠ 0) :
    (issueFound m requestMap action found).isSome ↔
      ReadableValidation m requestMap action found := by
  obtain ⟨paths, hpaths⟩ := Option.ne_none_iff_exists'.mp (Found.paths_ne_none hmatches)
  have hmod := Found.maxValidation_mod (Found.ne_nil_of_totalMatches hmatches)
  unfold ReadableValidation AsksForToken
  simp only [issueFound, Option.bind_eq_bind, hpaths, Option.bind_some, requiredValidation]
  by_cases hinternal : asString (valueAt requestMap (str "origin")) = some (str "internal")
  · simp [hinternal]
  · simp only [if_neg hinternal]
    by_cases hzero : found.maxValidation % 10 = 0
    · simp [hzero]
    · have hone : found.maxValidation % 10 = 1 ∨ found.maxValidation % 10 = 2 :=
        hmod.resolve_left hzero
      have hasks : (found.maxValidation % 10 = 2 ∨
          (found.maxValidation % 10 = 1 ∧ action = str "set")) ↔
          (action = str "set" ∨ found.maxValidation % 10 = 2) := by
        rcases hone with hone | htwo
        · simp [hone]
        · simp [htwo]
      have hcheck : ((checkToken m requestMap action paths found.maxValidation).bind fun r =>
          if r.1 ≠ 0 then some (Reply.error requestMap 3 (getTokenErrorMessage r.1))
          else some (.service (finalizeMessage (serviceMap requestMap paths r.2.1 r.2.2)))).isSome ↔
          (checkToken m requestMap action paths found.maxValidation).isSome := by
        cases checkToken m requestMap action paths found.maxValidation with
        | none => simp
        | some r =>
          obtain ⟨errorCode, handle, gatingId⟩ := r
          by_cases hcode : errorCode = 0 <;> simp [hcode]
      rw [if_neg hzero, if_pos hone, hcheck, checkToken_isSome_iff, hasks]
      simp [hinternal]

theorem issueFound_response {message : GoString} :
    issueFound m requestMap action found ≠ some (.response message) := by
  intro h
  simp only [issueFound, Option.bind_eq_bind, Option.bind_eq_some_iff] at h
  obtain ⟨paths, -, h⟩ := h
  split at h
  · simp at h
  · split at h
    · simp only [Option.bind_eq_some_iff] at h
      obtain ⟨⟨errorCode, tokenHandle, gatingId⟩, -, h⟩ := h
      dsimp only at h
      split at h <;> simp at h
    · simp at h

theorem issueFound_passes_iff (hmatches : found.totalMatches ≠ 0) :
    (∃ message, issueFound m requestMap action found = some (.service message)) ↔
      Passes m requestMap action found := by
  by_cases hinternal : asString (valueAt requestMap (str "origin")) = some (str "internal")
  · obtain ⟨paths, hpaths⟩ := Option.ne_none_iff_exists'.mp (Found.paths_ne_none hmatches)
    have hrequired : requiredValidation requestMap found = 0 := by
      rw [requiredValidation, if_pos hinternal]
    simp [issueFound, hpaths, hrequired, Passes, hinternal]
  · rw [issueFound_service_iff hmatches hinternal, Passes, or_iff_right hinternal]

/-- A set request is for an actuator. -/
def Settable (action : GoString) (found : Found) : Prop :=
  action = str "set" → found.nodeType = some ACTUATOR

theorem nodeType_isSome {path : GoString}
    (hmatches : (searchAll cfg [path]).totalMatches ≠ 0) :
    ((searchAll cfg [path]).nodeType).isSome := by
  cases hsearch : searchTree cfg path true true [] with
  | mk searchData validation =>
    cases searchData with
    | nil =>
      refine absurd ?_ hmatches
      simp [searchAll, Found.totalMatches, hsearch]
    | cons data searchData => simp [searchAll, Found.nodeType, hsearch]

/-- Behind the search, a set request for another node than an actuator is refused. -/
theorem issueSearch_cases (hset : action = str "set" → ∃ path, searchPath = [path]) :
    ((searchAll cfg searchPath).totalMatches ≠ 0 ∧ Settable action (searchAll cfg searchPath) ∧
      issueSearch cfg m requestMap action searchPath =
        issueFound m requestMap action (searchAll cfg searchPath)) ∨
    (¬ ((searchAll cfg searchPath).totalMatches ≠ 0 ∧
        Settable action (searchAll cfg searchPath)) ∧
      ∃ reqMap errorListIndex, issueSearch cfg m requestMap action searchPath =
        some (.error reqMap errorListIndex [])) := by
  unfold issueSearch
  rw [← searchAll]
  dsimp only
  by_cases hmatches : (searchAll cfg searchPath).totalMatches = 0
  · refine .inr ⟨fun h => h.1 hmatches, requestMap, 6, ?_⟩
    rw [if_pos hmatches]
  · rw [if_neg hmatches]
    by_cases haction : action = str "set"
    · obtain ⟨path, rfl⟩ := hset haction
      obtain ⟨nodeType, hnode⟩ := Option.isSome_iff_exists.mp (nodeType_isSome hmatches)
      simp only [if_pos haction, hnode, Option.bind_eq_bind, Option.bind_some]
      by_cases hactuator : nodeType = ACTUATOR
      · refine .inl ⟨hmatches, fun _ => by rw [hnode, hactuator], ?_⟩
        rw [if_neg (not_not_intro hactuator)]
      · refine .inr ⟨fun h => hactuator ?_, requestMap, 1, by rw [if_pos hactuator]⟩
        exact Option.some.inj (hnode.symm.trans (h.2 haction))
    · refine .inl ⟨hmatches, fun h => absurd h haction, ?_⟩
      rw [if_neg haction]

end Search

section Filters

variable {cfg : Config} {m : Moment} {requestMap : GoMap Json} {action rootPath : GoString}

/-- A filter at which the scan of the filters stops. -/
def decides (f : FilterObject) : Bool :=
  f.type = str "paths" || f.type = str "static-metadata" ||
    (f.type = str "dynamic-metadata" && f.parameter = str "server_capabilities")

/-- The first filter of the request that decides how it is answered. -/
def decidingFilter (m : Moment) (requestMap : GoMap Json) : Option FilterObject :=
  if isNull (valueAt requestMap (str "filter")) then none
  else (unpackFilter m.range (valueAt requestMap (str "filter"))).find? decides

/-- The paths that the tree is searched for; none where the request is answered without. -/
def searchPaths (m : Moment) (requestMap : GoMap Json) (rootPath : GoString) :
    Option (List GoString) :=
  match decidingFilter m requestMap with
  | none => some [rootPath]
  | some f =>
      if f.type = str "paths" then
        (pathsFilter rootPath f.parameter).map fun searchPath =>
          if searchPath = [] then [rootPath] else searchPath
      else none

/-- The authorization from which getTokenContext can cut the context of the client. -/
def ReadableContext (requestMap : GoMap Json) : Prop :=
  TextOrNull (valueAt requestMap (str "authorization")) ∧
    ∀ token, valueAt requestMap (str "authorization") = .str token →
      Extractable token (str "clx")

/-- The deciding filter is of the type. -/
def Asks (m : Moment) (requestMap : GoMap Json) (type : GoString) : Prop :=
  ∃ f, decidingFilter m requestMap = some f ∧ f.type = type

/-- The tree has a node for each segment of the path, and the last one has a node type. -/
def MetadataFound (cfg : Config) (m : Moment) (path tokenContext : GoString) : Prop :=
  ∃ data, (searchTree cfg path false false (getNoScopeList m tokenContext)).1.getLast? =
      some data ∧
    countPathSegments path ≤
      (searchTree cfg path false false (getNoScopeList m tokenContext)).1.length ∧
    1 ≤ data.nodeHandle.type ∧ data.nodeHandle.type ≤ 4

theorem getTokenContext_isSome_iff :
    (getTokenContext requestMap).isSome ↔ ReadableContext requestMap := by
  unfold getTokenContext ReadableContext
  split
  · next hnull =>
    rw [isNull_iff] at hnull
    simp [hnull, TextOrNull]
  · next hnull =>
    rw [← asString_isSome_iff hnull]
    cases htoken : asString (valueAt requestMap (str "authorization")) with
    | none => simp
    | some token =>
      rw [asString_eq_some] at htoken
      simp [htoken, extractFromToken_isSome_iff]

theorem jsonifyTreeNode_eq_nil_iff (node : Node) (levels : ℕ) :
    jsonifyTreeNode node [] (levels + 1) = [] ↔ node.type < 1 ∨ 4 < node.type := by
  rw [jsonifyTreeNode]
  by_cases htype : node.type < 1 ∨ 4 < node.type
  · simp [htype]
  · have hend : str "\x7d," ≠ [] := by decide
    simp [htype, hend]

theorem synthesizeJsonTree_eq (cfg : Config) (m : Moment) (path tokenContext : GoString) :
    ∃ metadata, synthesizeJsonTree cfg m path 2 tokenContext = some metadata ∧
      (metadata ≠ [] ↔ MetadataFound cfg m path tokenContext) := by
  unfold synthesizeJsonTree MetadataFound
  dsimp only
  split
  · next hcount =>
    refine ⟨[], rfl, iff_of_false (by simp) ?_⟩
    rintro ⟨data, -, hle, -⟩
    omega
  · next hcount =>
    obtain ⟨data, hlast⟩ : ∃ data, (searchTree cfg path false false
        (getNoScopeList m tokenContext)).1.getLast? = some data := by
      refine Option.ne_none_iff_exists'.mp fun hnone => ?_
      rw [List.getLast?_eq_none_iff] at hnone
      rw [hnone, countPathSegments, List.length_nil] at hcount
      omega
    have hnode := jsonifyTreeNode_eq_nil_iff data.nodeHandle 1
    refine ⟨_, by rw [hlast]; rfl, ?_⟩
    simp only [hlast, Option.some.injEq, exists_eq_left', if_neg (show (2 : ℕ) ≠ 0 by decide)]
    by_cases hnil : jsonifyTreeNode data.nodeHandle [] 2 = []
    · have htype := hnode.mp hnil
      simp only [hnil, if_true, ne_eq, not_true_eq_false, false_iff]
      omega
    · have htype := mt hnode.mpr hnil
      have hbrace : str "\x7b" ≠ [] := by decide
      simp only [hnil, if_false, ne_eq, List.append_eq_nil_iff, hbrace, false_and,
        not_false_eq_true, true_iff]
      omega

theorem addKeyValue_isSome (responseMap : GoMap Json) (key value : GoString) :
    (addKeyValue (finalizeMessage responseMap) key value).isSome := by
  obtain ⟨front, hfront⟩ := finalizeMessage_front responseMap
  cases value with
  | nil => rfl
  | cons c value =>
    simp only [addKeyValue, hfront, Option.bind_eq_bind, Option.bind_some]
    split <;> rfl

/-- The tree has metadata for the path, in the context of the client. -/
def HasMetadata (cfg : Config) (m : Moment) (requestMap : GoMap Json) (path : GoString) : Prop :=
  ∃ tokenContext, getTokenContext requestMap = some tokenContext ∧
    MetadataFound cfg m path
      (if tokenContext = [] then str "Undefined+Undefined+Undefined" else tokenContext)

theorem staticMetadata_cases (cfg : Config) (m : Moment) (requestMap : GoMap Json)
    (path : GoString) :
    (¬ ReadableContext requestMap ∧ staticMetadata cfg m requestMap path = none) ∨
    (ReadableContext requestMap ∧ HasMetadata cfg m requestMap path ∧
      ∃ message, staticMetadata cfg m requestMap path = some (.response message)) ∨
    (ReadableContext requestMap ∧ ¬ HasMetadata cfg m requestMap path ∧
      staticMetadata cfg m requestMap path = some (.error requestMap 0 [])) := by
  rw [← getTokenContext_isSome_iff, staticMetadata, HasMetadata]
  cases getTokenContext requestMap with
  | none => simp
  | some tokenContext =>
    refine .inr ?_
    obtain ⟨metadata, htree, hmetadata⟩ := synthesizeJsonTree_eq cfg m path
      (if tokenContext = [] then str "Undefined+Undefined+Undefined" else tokenContext)
    simp only [Option.bind_eq_bind, Option.bind_some, htree, Option.isSome_some, true_and,
      Option.some.injEq, exists_eq_left', ← hmetadata]
    by_cases hnil : metadata = []
    · simp [hnil]
    · refine .inl ⟨hnil, ?_⟩
      obtain ⟨message, hmessage⟩ := Option.isSome_iff_exists.mp (addKeyValue_isSome
        (((requestMap.delete (str "path")).delete (str "filter")).set (str "ts") (.str m.rfcTime))
        (str "metadata") metadata)
      exact ⟨message, by rw [if_neg hnil, hmessage, Option.bind_some]⟩

theorem scanFilters_eq (cfg : Config) (m : Moment) (requestMap : GoMap Json)
    (rootPath : GoString) (filterList : List FilterObject) :
    scanFilters cfg m requestMap rootPath filterList =
      match filterList.find? decides with
      | none => some (.inl [])
      | some f => scanFilters cfg m requestMap rootPath [f] := by
  induction filterList with
  | nil => rfl
  | cons f filterList ih =>
    by_cases hf : decides f = true
    · rw [List.find?_cons_of_pos hf]
      dsimp only
      rw [scanFilters, scanFilters]
      simp only [decides, Bool.or_eq_true, Bool.and_eq_true, decide_eq_true_eq] at hf
      by_cases hpaths : f.type = str "paths"
      · rw [if_pos hpaths, if_pos hpaths]
      · rw [if_neg hpaths, if_neg hpaths]
        by_cases hstatic : f.type = str "static-metadata"
        · rw [if_pos hstatic, if_pos hstatic]
        · rw [if_neg hstatic, if_neg hstatic]
          have hdynamic := (hf.resolve_left fun h => h.elim hpaths hstatic)
          rw [if_pos hdynamic, if_pos hdynamic]
    · rw [List.find?_cons_of_neg hf, scanFilters]
      simp only [decides, Bool.or_eq_true, Bool.and_eq_true, decide_eq_true_eq, not_or] at hf
      rw [if_neg hf.1.1, if_neg hf.1.2, if_neg hf.2]
      exact ih

theorem decidingFilter_type {f : FilterObject} (h : decidingFilter m requestMap = some f) :
    f.type = str "paths" ∨ f.type = str "static-metadata" ∨
      (f.type = str "dynamic-metadata" ∧ f.parameter = str "server_capabilities") := by
  unfold decidingFilter at h
  split at h
  · simp at h
  · have hf := List.find?_some h
    simpa only [decides, Bool.or_eq_true, Bool.and_eq_true, decide_eq_true_eq, or_assoc] using hf

/-- A request of a client with a path is searched for, or its deciding filter answers it. -/
theorem issueServiceRequest_eq
    (hinternal : ¬ (action = str "internal-killsubscriptions" ∨
      action = str "internal-cancelsubscription"))
    (hpath : valueAt requestMap (str "path") = .str rootPath) :
    issueServiceRequest cfg m requestMap action =
      match decidingFilter m requestMap with
      | none => issueSearch cfg m requestMap action [rootPath]
      | some f =>
          if f.type = str "paths" then
            match pathsFilter rootPath f.parameter with
            | none => some (.error requestMap 0 [])
            | some searchPath => issueSearch cfg m requestMap action
                (if searchPath = [] then [rootPath] else searchPath)
          else if f.type = str "static-metadata" then staticMetadata cfg m requestMap rootPath
          else some (.service (finalizeMessage requestMap)) := by
  have hscan : (if isNull (valueAt requestMap (str "filter")) then []
      else unpackFilter m.range (valueAt requestMap (str "filter"))).find? decides =
        decidingFilter m requestMap := by
    unfold decidingFilter
    split <;> rfl
  rw [issueServiceRequest, if_neg hinternal, hpath]
  simp only [asString, Option.bind_eq_bind, Option.bind_some]
  rw [scanFilters_eq, hscan]
  cases hdeciding : decidingFilter m requestMap with
  | none => rfl
  | some f =>
    dsimp only
    rw [scanFilters]
    by_cases hpaths : f.type = str "paths"
    · rw [if_pos hpaths, if_pos hpaths]
      cases pathsFilter rootPath f.parameter with
      | none => rfl
      | some searchPath =>
        cases searchPath with
        | nil => rfl
        | cons path searchPath => rfl
    · rw [if_neg hpaths, if_neg hpaths]
      by_cases hstatic : f.type = str "static-metadata"
      · rw [if_pos hstatic, if_pos hstatic]
        cases staticMetadata cfg m requestMap rootPath <;> rfl
      · rw [if_neg hstatic, if_neg hstatic, if_pos
          (((decidingFilter_type hdeciding).resolve_left hpaths).resolve_left hstatic)]
        rfl

end Filters

/-- Which conditions decide how the service of a request ends: that it does, with a request
to the service manager, or with metadata. -/
structure Ends (r : MayPanic Reply) (readable forwarded metadata : Prop) : Prop where
  readable : r.isSome ↔ readable
  forwarded : (∃ message, r = some (.service message)) ↔ forwarded
  metadata : (∃ message, r = some (.response message)) ↔ metadata

namespace Ends

variable {r : MayPanic Reply} {readable forwarded metadata : Prop}

theorem panics (hreadable : ¬ readable) (hforwarded : ¬ forwarded) (hmetadata : ¬ metadata) :
    Ends none readable forwarded metadata :=
  ⟨by simp [hreadable], by simp [hforwarded], by simp [hmetadata]⟩

theorem error {requestMap : GoMap Json} {errorListIndex : Fin 8} {altErrorMessage : GoString}
    (hreadable : readable) (hforwarded : ¬ forwarded) (hmetadata : ¬ metadata) :
    Ends (some (.error requestMap errorListIndex altErrorMessage)) readable forwarded metadata :=
  ⟨by simp [hreadable], by simp [hforwarded], by simp [hmetadata]⟩

theorem service {message : GoString}
    (hreadable : readable) (hforwarded : forwarded) (hmetadata : ¬ metadata) :
    Ends (some (.service message)) readable forwarded metadata :=
  ⟨by simp [hreadable], by simp [hforwarded], by simp [hmetadata]⟩

theorem response {message : GoString}
    (hreadable : readable) (hforwarded : ¬ forwarded) (hmetadata : metadata) :
    Ends (some (.response message)) readable forwarded metadata :=
  ⟨by simp [hreadable], by simp [hforwarded], by simp [hmetadata]⟩

theorem congr {readable' forwarded' metadata' : Prop} (h : Ends r readable forwarded metadata)
    (hreadable : readable ↔ readable') (hforwarded : forwarded ↔ forwarded')
    (hmetadata : metadata ↔ metadata') : Ends r readable' forwarded' metadata' :=
  ⟨h.readable.trans hreadable, h.forwarded.trans hforwarded, h.metadata.trans hmetadata⟩

end Ends

section Issue

variable {cfg : Config} {m : Moment} {requestMap : GoMap Json} {action rootPath : GoString}

/-- A search whose nodes the request may be served for reads no member of another type. -/
def ReadableSearch (cfg : Config) (m : Moment) (requestMap : GoMap Json) (action : GoString)
    (searchPath : List GoString) : Prop :=
  (searchAll cfg searchPath).totalMatches ≠ 0 → Settable action (searchAll cfg searchPath) →
    ReadableValidation m requestMap action (searchAll cfg searchPath)

/-- The nodes of the search are there, can be set by a set request, and the request passes the
validation. -/
def PassesSearch (cfg : Config) (m : Moment) (requestMap : GoMap Json) (action : GoString)
    (searchPath : List GoString) : Prop :=
  (searchAll cfg searchPath).totalMatches ≠ 0 ∧ Settable action (searchAll cfg searchPath) ∧
    Passes m requestMap action (searchAll cfg searchPath)

theorem issueSearch_ends {searchPath : List GoString}
    (hset : action = str "set" → ∃ path, searchPath = [path]) :
    Ends (issueSearch cfg m requestMap action searchPath)
      (ReadableSearch cfg m requestMap action searchPath)
      (PassesSearch cfg m requestMap action searchPath) False := by
  unfold ReadableSearch PassesSearch
  rcases @issueSearch_cases cfg m requestMap action searchPath hset with
    ⟨hmatches, hsettable, heq⟩ | ⟨hno, reqMap, errorListIndex, heq⟩
  · rw [heq]
    constructor
    · simp only [issueFound_isSome_iff hmatches, hmatches, hsettable, ne_eq, not_false_eq_true,
        true_implies]
    · simp only [issueFound_passes_iff hmatches, hmatches, hsettable, ne_eq, not_false_eq_true,
        true_and]
    · simp only [issueFound_response, exists_false]
  · rw [heq]
    refine .error ?_ ?_ not_false
    · exact fun hmatches hsettable => absurd ⟨hmatches, hsettable⟩ hno
    · exact fun hpasses => hno ⟨hpasses.1, hpasses.2.1⟩

/-- The members of a request with a path that the code asserts the types of behind its path. -/
structure ReadableIssue (cfg : Config) (m : Moment) (requestMap : GoMap Json)
    (action rootPath : GoString) : Prop where
  context : Asks m requestMap (str "static-metadata") → ReadableContext requestMap
  search : ∀ searchPath, searchPaths m requestMap rootPath = some searchPath →
    ReadableSearch cfg m requestMap action searchPath

/-- A request with a path is sent on. -/
def ForwardsIssue (cfg : Config) (m : Moment) (requestMap : GoMap Json)
    (action rootPath : GoString) : Prop :=
  Asks m requestMap (str "dynamic-metadata") ∨ ∃ searchPath,
    searchPaths m requestMap rootPath = some searchPath ∧
      PassesSearch cfg m requestMap action searchPath

/-- A request with a path is answered with metadata. -/
def MetadataIssue (cfg : Config) (m : Moment) (requestMap : GoMap Json)
    (rootPath : GoString) : Prop :=
  Asks m requestMap (str "static-metadata") ∧ HasMetadata cfg m requestMap rootPath

theorem not_asks_of_none {type : GoString} (h : decidingFilter m requestMap = none) :
    ¬ Asks m requestMap type := by
  rintro ⟨f, hf, -⟩
  rw [h] at hf
  simp at hf

theorem asks_iff {type : GoString} {f : FilterObject}
    (h : decidingFilter m requestMap = some f) : Asks m requestMap type ↔ f.type = type := by
  constructor
  · rintro ⟨f', hf', htype⟩
    rw [Option.some.inj (h.symm.trans hf')]
    exact htype
  · intro htype
    exact ⟨f, h, htype⟩

/-- The request is searched for. -/
theorem issueSearch_ends_of {searchPath : List GoString}
    (hset : action = str "set" → ∃ path, searchPath = [path])
    (hsearch : searchPaths m requestMap rootPath = some searchPath)
    (hstatic : ¬ Asks m requestMap (str "static-metadata"))
    (hdynamic : ¬ Asks m requestMap (str "dynamic-metadata")) :
    Ends (issueSearch cfg m requestMap action searchPath)
      (ReadableIssue cfg m requestMap action rootPath)
      (ForwardsIssue cfg m requestMap action rootPath)
      (MetadataIssue cfg m requestMap rootPath) := by
  refine (issueSearch_ends hset).congr ⟨fun h => ?_, fun h => h.search _ hsearch⟩ ?_
    (iff_of_false not_false fun h => hstatic h.1)
  · refine ⟨fun hasks => absurd hasks hstatic, fun searchPath' hsearch' => ?_⟩
    rw [← Option.some.inj (hsearch.symm.trans hsearch')]
    exact h
  · simp [ForwardsIssue, hdynamic, hsearch]

theorem issueServiceRequest_ends
    (hinternal : ¬ (action = str "internal-killsubscriptions" ∨
      action = str "internal-cancelsubscription"))
    (hpath : valueAt requestMap (str "path") = .str rootPath)
    (hset : action = str "set" → isNull (valueAt requestMap (str "filter")) = true) :
    Ends (issueServiceRequest cfg m requestMap action)
      (ReadableIssue cfg m requestMap action rootPath)
      (ForwardsIssue cfg m requestMap action rootPath)
      (MetadataIssue cfg m requestMap rootPath) := by
  rw [issueServiceRequest_eq hinternal hpath]
  cases hdeciding : decidingFilter m requestMap with
  | none =>
    refine issueSearch_ends_of (fun _ => ⟨rootPath, rfl⟩) ?_ (not_asks_of_none hdeciding)
      (not_asks_of_none hdeciding)
    rw [searchPaths, hdeciding]
  | some f =>
    have hnotset : action ≠ str "set" := by
      intro haction
      rw [decidingFilter, if_pos (hset haction)] at hdeciding
      simp at hdeciding
    dsimp only
    by_cases hpaths : f.type = str "paths"
    · have hstatic : ¬ Asks m requestMap (str "static-metadata") := by
        rw [asks_iff hdeciding, hpaths]
        decide
      have hdynamic : ¬ Asks m requestMap (str "dynamic-metadata") := by
        rw [asks_iff hdeciding, hpaths]
        decide
      rw [if_pos hpaths]
      cases hparameter : pathsFilter rootPath f.parameter with
      | none =>
        have hsearch : searchPaths m requestMap rootPath = none := by
          simp [searchPaths, hdeciding, hpaths, hparameter]
        refine .error ⟨fun h => absurd h hstatic, ?_⟩ ?_ (fun h => hstatic h.1)
        · simp [hsearch]
        · simp [ForwardsIssue, hdynamic, hsearch]
      | some searchPath =>
        refine issueSearch_ends_of (fun h => absurd h hnotset) ?_ hstatic hdynamic
        simp [searchPaths, hdeciding, hpaths, hparameter]
    · have hsearch : searchPaths m requestMap rootPath = none := by
        simp [searchPaths, hdeciding, hpaths]
      rw [if_neg hpaths]
      by_cases hstatic : f.type = str "static-metadata"
      · have hasks : Asks m requestMap (str "static-metadata") := (asks_iff hdeciding).mpr hstatic
        have hno : ¬ ForwardsIssue cfg m requestMap action rootPath := by
          rintro (hdynamic | ⟨searchPath, hsome, -⟩)
          · rw [asks_iff hdeciding, hstatic] at hdynamic
            exact absurd hdynamic (by decide)
          · rw [hsearch] at hsome
            simp at hsome
        rw [if_pos hstatic]
        rcases staticMetadata_cases cfg m requestMap rootPath with
          ⟨hcontext, heq⟩ | ⟨hcontext, hmetadata, message, heq⟩ | ⟨hcontext, hmetadata, heq⟩
        · rw [heq]
          refine .panics (fun h => hcontext (h.context hasks)) hno fun h => ?_
          obtain ⟨-, tokenContext, hsome, -⟩ := h
          exact hcontext (getTokenContext_isSome_iff.mp (Option.isSome_of_eq_some hsome))
        · rw [heq]
          exact .response ⟨fun _ => hcontext, by simp [hsearch]⟩ hno ⟨hasks, hmetadata⟩
        · rw [heq]
          exact .error ⟨fun _ => hcontext, by simp [hsearch]⟩ hno fun h => hmetadata h.2
      · have hdynamic : f.type = str "dynamic-metadata" :=
          (((decidingFilter_type hdeciding).resolve_left hpaths).resolve_left hstatic).1
        rw [if_neg hstatic]
        refine .service ⟨?_, by simp [hsearch]⟩ (.inl ((asks_iff hdeciding).mpr hdynamic)) ?_
        · exact fun h => absurd ((asks_iff hdeciding).mp h) hstatic
        · exact fun h => hstatic ((asks_iff hdeciding).mp h.1)

end Issue

section Serve

variable {cfg : Config} {m : Moment} {request : GoString}

def actionText (request : GoString) : GoString :=
  textMember (requestMapOf request) (str "action")

def pathText (request : GoString) : GoString := textMember (requestMapOf request) (str "path")

/-- The request as serveRequest hands it on, with its path in dot notation. -/
def dotted (request : GoString) : GoMap Json :=
  (requestMapOf request).set (str "path") (.str (urlToPath (pathText request)))

def FilteredSet (request : GoString) : Prop :=
  actionText request = str "set" ∧
    ¬ isNull (valueAt (requestMapOf request) (str "filter")) = true

/-- The request goes to the service manager as it is. -/
def PassedOn (request : GoString) : Prop :=
  actionText request = str "unsubscribe" ∨
    actionText request = str "internal-killsubscriptions" ∨
    actionText request = str "internal-cancelsubscription"

/-- The request passes the checks in front of the search for its path. -/
def Searched (request : GoString) : Prop :=
  Accepted request ∧ ¬ FilteredSet request ∧ ¬ PassedOn request

/-- The members that the code asserts the types of have these types. -/
structure ReadableRequest (cfg : Config) (m : Moment) (request : GoString) : Prop where
  action : TextOrNull (valueAt (requestMapOf request) (str "action"))
  path : validRequest request (actionText request) = true →
    TextOrNull (valueAt (requestMapOf request) (str "path"))
  search : Searched request →
    (∃ path, valueAt (requestMapOf request) (str "path") = .str path) ∧
      ReadableIssue cfg m (dotted request) (actionText request) (urlToPath (pathText request))

/-- The request is sent on. -/
def ForwardsRequest (cfg : Config) (m : Moment) (request : GoString) : Prop :=
  (Accepted request ∧ TextOrNull (valueAt (requestMapOf request) (str "path")) ∧
    PassedOn request) ∨
  (Searched request ∧ (∃ path, valueAt (requestMapOf request) (str "path") = .str path) ∧
    ForwardsIssue cfg m (dotted request) (actionText request) (urlToPath (pathText request)))

/-- The request is answered with metadata. -/
def MetadataRequest (cfg : Config) (m : Moment) (request : GoString) : Prop :=
  Searched request ∧ (∃ path, valueAt (requestMapOf request) (str "path") = .str path) ∧
    MetadataIssue cfg m (dotted request) (urlToPath (pathText request))

theorem textMember_of_str {requestMap : GoMap Json} {k v : GoString}
    (h : valueAt requestMap k = .str v) : textMember requestMap k = v := by
  rw [textMember, h]
  rfl

theorem serveRequest_ends_of_invalid (h : ¬ validRequest request (actionText request) = true) :
    Ends (serveRequest cfg m request) (ReadableRequest cfg m request)
      (ForwardsRequest cfg m request) (MetadataRequest cfg m request) := by
  have haccepted : ¬ Accepted request := fun haccepted => h haccepted.1
  have hsearched : ¬ Searched request := fun hsearched => haccepted hsearched.1
  have hforwards : ¬ ForwardsRequest cfg m request := by
    rintro (hpassed | hsearch)
    · exact haccepted hpassed.1
    · exact hsearched hsearch.1
  have hmetadata : ¬ MetadataRequest cfg m request := fun hmetadata => hsearched hmetadata.1
  have hreadable : TextOrNull (valueAt (requestMapOf request) (str "action")) →
      ReadableRequest cfg m request := fun haction =>
    ⟨haction, fun hvalid => absurd hvalid h, fun hsearch => absurd hsearch hsearched⟩
  unfold serveRequest
  cases hmap : mapRequest request with
  | none =>
    refine .error (hreadable (.inl ?_)) hforwards hmetadata
    rw [requestMapOf, hmap]
    rfl
  | some requestMap =>
    have hrequest : requestMapOf request = requestMap := by
      rw [requestMapOf, hmap, Option.getD_some]
    rw [hrequest] at hreadable
    dsimp only
    split
    · next hnull => exact .error (hreadable (textOrNull_of_isNull hnull)) hforwards hmetadata
    · next hnull =>
      cases haction : asString (valueAt requestMap (str "action")) with
      | none =>
        refine .panics (fun hread => ?_) hforwards hmetadata
        have hsome := (asString_isSome_iff hnull).mpr (hrequest ▸ hread.action)
        rw [haction] at hsome
        simp at hsome
      | some action =>
        rw [asString_eq_some] at haction
        have htext : actionText request = action := by
          rw [actionText, hrequest]
          exact textMember_of_str haction
        rw [htext] at h
        simp only [Option.bind_eq_bind, Option.bind_some, if_pos h]
        exact .error (hreadable (.inr ⟨action, haction⟩)) hforwards hmetadata

theorem serveRequest_of_valid (h : validRequest request (actionText request) = true) :
    valueAt (requestMapOf request) (str "action") = .str (actionText request) ∧
      serveRequest cfg m request = (normalizePath (requestMapOf request)).bind fun normalized =>
        match normalized with
        | none => some (.error (requestMapOf request) 1 [])
        | some requestMap =>
            if actionText request = str "set" ∧
                ¬ isNull (valueAt requestMap (str "filter")) then some (.error requestMap 0 [])
            else if actionText request = str "unsubscribe" then some (.service request)
            else issueServiceRequest cfg m requestMap (actionText request) := by
  have hne : actionText request ≠ [] := by
    intro hnil
    have hinvalid : validRequest request [] = false := rfl
    rw [hnil, hinvalid] at h
    simp at h
  have haction : valueAt (requestMapOf request) (str "action") = .str (actionText request) := by
    cases hmember : asString (valueAt (requestMapOf request) (str "action")) with
    | none =>
      refine absurd ?_ hne
      rw [actionText, textMember, hmember]
      rfl
    | some action =>
      rw [asString_eq_some] at hmember
      rw [actionText, textMember_of_str hmember, hmember]
  refine ⟨haction, ?_⟩
  unfold serveRequest
  cases hmap : mapRequest request with
  | none =>
    rw [requestMapOf, hmap] at haction
    simp [valueAt, GoMap.get] at haction
  | some requestMap =>
    have hrequest : requestMapOf request = requestMap := by
      rw [requestMapOf, hmap, Option.getD_some]
    rw [hrequest] at haction ⊢
    simp only [haction, asString, Option.bind_eq_bind, Option.bind_some, h, not_true_eq_false,
      if_false]
    rfl

/-- A request whose path has no wildcard, and is there for a request that is searched for. -/
theorem afterPath_ends {requestMap : GoMap Json} (haccepted : Accepted request)
    (hfilter : valueAt requestMap (str "filter") =
      valueAt (requestMapOf request) (str "filter"))
    (hpath : TextOrNull (valueAt (requestMapOf request) (str "path")))
    (hends : Searched request → Ends (issueServiceRequest cfg m requestMap (actionText request))
      (ReadableRequest cfg m request) (ForwardsRequest cfg m request)
      (MetadataRequest cfg m request)) :
    Ends (if actionText request = str "set" ∧
          ¬ isNull (valueAt requestMap (str "filter")) then some (.error requestMap 0 [])
        else if actionText request = str "unsubscribe" then some (.service request)
        else issueServiceRequest cfg m requestMap (actionText request))
      (ReadableRequest cfg m request) (ForwardsRequest cfg m request)
      (MetadataRequest cfg m request) := by
  have haction := (@serveRequest_of_valid cfg m request haccepted.1).1
  by_cases hset : actionText request = str "set" ∧
      ¬ isNull (valueAt (requestMapOf request) (str "filter")) = true
  · have hsearched : ¬ Searched request := fun hsearched => hsearched.2.1 hset
    have hpassed : ¬ PassedOn request := by
      unfold PassedOn
      rw [hset.1]
      decide
    rw [hfilter, if_pos hset]
    refine .error ⟨.inr ⟨_, haction⟩, fun _ => hpath, fun h => absurd h hsearched⟩ ?_ ?_
    · rintro (⟨-, -, hpass⟩ | ⟨hsearch, -⟩)
      · exact hpassed hpass
      · exact hsearched hsearch
    · exact fun h => hsearched h.1
  · rw [hfilter, if_neg hset]
    by_cases hpassed : PassedOn request
    · have hsearched : ¬ Searched request := fun hsearched => hsearched.2.2 hpassed
      have hservice : ∃ message, (if actionText request = str "unsubscribe" then
          some (Reply.service request)
          else issueServiceRequest cfg m requestMap (actionText request)) =
            some (.service message) := by
        rcases hpassed with hunsubscribe | hinternal
        · exact ⟨request, if_pos hunsubscribe⟩
        · refine ⟨finalizeMessage requestMap, ?_⟩
          rw [if_neg, issueServiceRequest, if_pos hinternal]
          rcases hinternal with heq | heq <;> rw [heq] <;> decide
      obtain ⟨message, hmessage⟩ := hservice
      rw [hmessage]
      exact .service ⟨.inr ⟨_, haction⟩, fun _ => hpath, fun h => absurd h hsearched⟩
        (.inl ⟨haccepted, hpath, hpassed⟩) fun h => hsearched h.1
    · rw [if_neg fun h => hpassed (.inl h)]
      exact hends ⟨haccepted, hset, hpassed⟩

theorem serveRequest_ends (cfg : Config) (m : Moment) (request : GoString) :
    Ends (serveRequest cfg m request) (ReadableRequest cfg m request)
      (ForwardsRequest cfg m request) (MetadataRequest cfg m request) := by
  by_cases hvalid : validRequest request (actionText request) = true
  swap
  · exact serveRequest_ends_of_invalid hvalid
  obtain ⟨haction, heq⟩ := @serveRequest_of_valid cfg m request hvalid
  rw [heq, normalizePath]
  by_cases hpath : TextOrNull (valueAt (requestMapOf request) (str "path"))
  swap
  · -- the path is neither null nor a string
    have hnull : ¬ isNull (valueAt (requestMapOf request) (str "path")) = true :=
      fun hnull => hpath (textOrNull_of_isNull hnull)
    have hnone : asString (valueAt (requestMapOf request) (str "path")) = none := by
      refine asString_eq_none.mpr fun path hstr => hpath (.inr ⟨path, hstr⟩)
    rw [if_neg hnull, hnone]
    refine .panics (fun h => hpath (h.path hvalid)) ?_ fun h => hpath (.inr h.2.1)
    rintro (⟨-, htext, -⟩ | ⟨-, htext, -⟩)
    · exact hpath htext
    · exact hpath (.inr htext)
  rcases hpath with hnull | ⟨path, hstr⟩
  · have hmissing : ¬ ∃ path, valueAt (requestMapOf request) (str "path") = .str path := by
      simp [hnull]
    have haccepted : Accepted request := by
      refine ⟨hvalid, ?_⟩
      have hempty : textMember (requestMapOf request) (str "path") = [] := by
        rw [textMember, hnull]
        rfl
      rw [hempty]
      decide
    rw [if_pos (isNull_iff.mpr hnull)]
    refine afterPath_ends haccepted rfl (.inl hnull) fun hsearched => ?_
    have hnone : issueServiceRequest cfg m (requestMapOf request) (actionText request) = none := by
      rw [issueServiceRequest, if_neg fun h => hsearched.2.2 (.inr h), hnull]
      rfl
    rw [hnone]
    refine .panics (fun h => hmissing (h.search hsearched).1) ?_ fun h => hmissing h.2.1
    rintro (⟨-, -, hpassed⟩ | ⟨-, htext, -⟩)
    · exact hsearched.2.2 hpassed
    · exact hmissing htext
  · have htext : pathText request = path := textMember_of_str hstr
    have hnotnull : ¬ isNull (valueAt (requestMapOf request) (str "path")) = true := by
      rw [hstr]
      simp [isNull]
    rw [if_neg hnotnull, hstr]
    simp only [asString, Option.bind_eq_bind, Option.bind_some]
    by_cases hwildcard : contains path (str "*") = true
    · have haccepted : ¬ Accepted request := by
        intro haccepted
        have hno := haccepted.2
        rw [← pathText, htext, hwildcard] at hno
        simp at hno
      have hsearched : ¬ Searched request := fun hsearched => haccepted hsearched.1
      rw [if_pos hwildcard]
      refine .error ⟨.inr ⟨_, haction⟩, fun _ => .inr ⟨path, hstr⟩,
        fun h => absurd h hsearched⟩ ?_ fun h => hsearched h.1
      rintro (⟨h, -⟩ | ⟨h, -⟩)
      · exact haccepted h
      · exact hsearched h
    · have haccepted : Accepted request := by
        refine ⟨hvalid, ?_⟩
        rw [← pathText, htext]
        simpa using hwildcard
      have hdotted : (requestMapOf request).set (str "path") (.str (urlToPath path)) =
          dotted request := by rw [dotted, htext]
      have hsame : ∀ k ≠ str "path", valueAt (dotted request) k =
          valueAt (requestMapOf request) k := by
        intro k hk
        rw [dotted, valueAt_set, if_neg hk]
      rw [if_neg hwildcard, hdotted]
      refine afterPath_ends haccepted (hsame _ (by decide)) (.inr ⟨path, hstr⟩)
        fun hsearched => ?_
      have hends := @issueServiceRequest_ends cfg m (dotted request) (actionText request)
        (urlToPath (pathText request)) (fun h => hsearched.2.2 (.inr h))
        (by rw [dotted, valueAt_set, if_pos rfl]) fun hset => by
          rw [hsame _ (by decide)]
          exact not_not.mp fun hfilter => hsearched.2.1 ⟨hset, hfilter⟩
      refine hends.congr ⟨fun h => ?_, fun h => (h.search hsearched).2⟩ ?_ ?_
      · exact ⟨.inr ⟨_, haction⟩, fun _ => .inr ⟨path, hstr⟩, fun _ => ⟨⟨path, hstr⟩, h⟩⟩
      · constructor
        · intro h
          exact .inr ⟨hsearched, ⟨path, hstr⟩, h⟩
        · rintro (⟨-, -, hpassed⟩ | ⟨-, -, h⟩)
          · exact absurd hpassed hsearched.2.2
          · exact h
      · constructor
        · intro h
          exact ⟨hsearched, ⟨path, hstr⟩, h⟩
        · exact fun h => h.2.2

end Serve

/-- The service of a message of a client completes with one error response, whose map names
the client of the session, or with one request to the service manager. -/
def Answered (cfg : Config) (m : Moment) (errorResponseMap : GoMap Json) (session : Session)
    (reqMessage : GoString) : Prop :=
  (∃ reqMap errorListIndex altErrorMessage,
    serveRequest cfg m (session.forward reqMessage) =
      some (.error reqMap errorListIndex altErrorMessage) ∧
    valueAt (setErrorResponse m.rfcTime reqMap errorResponseMap errorListIndex altErrorMessage)
      (str "RouterId") = .str (Managers.routerId session.mgrId.val session.clientId)) ∨
  ∃ message, serveRequest cfg m (session.forward reqMessage) = some (.service message)

/-- The router id that the core decodes from the request is the one of the session; a request
without a router id follows an error response to the same session. -/
def Addressed (errorResponseMap : GoMap Json) (session : Session) (request : GoString) : Prop :=
  valueAt (requestMapOf request) (str "RouterId") =
    .str (Managers.routerId session.mgrId.val session.clientId) ∨
  (valueAt (requestMapOf request) (str "RouterId") = .null ∧
    valueAt errorResponseMap (str "RouterId") =
      .str (Managers.routerId session.mgrId.val session.clientId))

theorem addressed_iff {cfg : Config} {m : Moment} {errorResponseMap reqMap : GoMap Json}
    {session : Session} {request : GoString} {errorListIndex : Fin 8}
    {altErrorMessage : GoString}
    (h : serveRequest cfg m request = some (.error reqMap errorListIndex altErrorMessage)) :
    valueAt (setErrorResponse m.rfcTime reqMap errorResponseMap errorListIndex altErrorMessage)
        (str "RouterId") = .str (Managers.routerId session.mgrId.val session.clientId) ↔
      Addressed errorResponseMap session request := by
  have hkept : str "RouterId" ∈ keptMembers := by decide
  have hrouter : valueAt reqMap (str "RouterId") =
      valueAt (requestMapOf request) (str "RouterId") := serveRequest_error h _ (by decide)
  have hother : ¬ (str "RouterId" = str "ts" ∨ str "RouterId" = str "error") := by decide
  have hrequestId : str "RouterId" ≠ str "requestId" := by decide
  unfold Addressed
  rw [valueAt_setErrorResponse, if_neg hother, hrouter]
  by_cases hnull : isNull (valueAt (requestMapOf request) (str "RouterId")) = true
  · rw [if_neg (by simp [hrequestId, hnull])]
    rw [isNull_iff] at hnull
    simp [hnull]
  · rw [if_pos (.inr ⟨hkept, by simpa using hnull⟩)]
    have hne : valueAt (requestMapOf request) (str "RouterId") ≠ .null :=
      fun heq => hnull (isNull_iff.mpr heq)
    simp [hne]

end VissServer.Core
