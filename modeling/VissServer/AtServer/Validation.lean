import VissServer.AtServer.Revocation

/-!
What the answers of the access token server to the core mean. A text is valid for a
request where it resolves to a stored token that passes every check; any other text is
answered by the code of the first check that fails.
-/
namespace VissServer.AtServer

open Go Utils

/-- The token of the first slot of the active list that stores the text as its token or
as its handle. -/
def resolvedToken (s : State) (text : GoString) : Option GoString :=
  (firstSlot (fun e => e.matchesToken text) s.activeList).map fun i => (s.activeList i).atoken

/-- The signals that the purposes of a name list, in the order of the policy. -/
def listings (cfg : Config) (purpose : GoString) : List AccessElement :=
  (cfg.pList.filter fun p => p.short = purpose).flatMap PurposeElement.accessList

/-- The paths of a request, those with wildcards expanded. -/
def requestedPaths (cfg : Config) (paths : List GoString) : List GoString :=
  paths.flatMap fun path => if contains path (str "*") then cfg.searchNodes path else [path]

/-- A set needs more than the permission to read. -/
def AccessElement.Permits (a : AccessElement) (action : GoString) : Prop :=
  action = str "set" → a.permission ≠ str "read-only"

/-- The path is listed with a permission for the action. -/
def Listed (cfg : Config) (purpose action path : GoString) : Prop :=
  ∃ a ∈ listings cfg purpose, a.path = path ∧ a.Permits action

/-- The first listing of the path permits the action. -/
def Granted (cfg : Config) (purpose action path : GoString) : Prop :=
  ∃ before a after, listings cfg purpose = before ++ a :: after ∧
    (∀ b ∈ before, b.path ≠ path) ∧ a.path = path ∧ a.Permits action

/-- The number that a claim of a token holds. -/
def claimNumber (token key : GoString) : Option ℤ := (extractFromToken token key).bind atoi

/-- The checks on a token, by the rule for the paths of its purpose. -/
structure Valid (cfg : Config) (rule : GoString → GoString → Prop) (now : ℤ)
    (payload : AtValidatePayload) (token : GoString) : Prop where
  signature : verifyTokenSignature cfg.crypto token theAtSecret = true
  access : ∃ purpose, extractFromToken token (str "scp") = some purpose ∧
    ∀ path ∈ requestedPaths cfg payload.paths, rule purpose path
  issued : ∃ iat, claimNumber token (str "iat") = some iat ∧ iat * second ≤ now
  unexpired : ∃ exp, claimNumber token (str "exp") = some exp ∧ now ≤ exp * second

/-- The purpose of the token grants all the paths. -/
def AccessGranted (cfg : Config) (payload : AtValidatePayload) (token : GoString) : Prop :=
  ∃ purpose, extractFromToken token (str "scp") = some purpose ∧
    ∀ path ∈ requestedPaths cfg payload.paths, Granted cfg purpose payload.action path

/-- The code of the first check that fails on a token. -/
inductive FirstFailure (cfg : Config) (now : ℤ) (payload : AtValidatePayload)
    (token : GoString) : ℤ → Prop
  | signature (h : verifyTokenSignature cfg.crypto token theAtSecret = false) :
      FirstFailure cfg now payload token 5
  | unlisted (purpose path : GoString) (before after : List GoString)
      (h : verifyTokenSignature cfg.crypto token theAtSecret = true)
      (hpurpose : extractFromToken token (str "scp") = some purpose)
      (hpaths : requestedPaths cfg payload.paths = before ++ path :: after)
      (hbefore : ∀ p ∈ before, Granted cfg purpose payload.action p)
      (hpath : ∀ a ∈ listings cfg purpose, a.path ≠ path) :
      FirstFailure cfg now payload token 60
  | readOnly (purpose path : GoString) (before after : List GoString)
      (h : verifyTokenSignature cfg.crypto token theAtSecret = true)
      (hpurpose : extractFromToken token (str "scp") = some purpose)
      (hpaths : requestedPaths cfg payload.paths = before ++ path :: after)
      (hbefore : ∀ p ∈ before, Granted cfg purpose payload.action p)
      (hlisted : ∃ a ∈ listings cfg purpose, a.path = path)
      (hpath : ¬ Granted cfg purpose payload.action path) :
      FirstFailure cfg now payload token 61
  | iatMalformed (h : verifyTokenSignature cfg.crypto token theAtSecret = true)
      (haccess : AccessGranted cfg payload token)
      (hiat : claimNumber token (str "iat") = none) : FirstFailure cfg now payload token 10
  | iatFuture (iat : ℤ) (h : verifyTokenSignature cfg.crypto token theAtSecret = true)
      (haccess : AccessGranted cfg payload token)
      (hiat : claimNumber token (str "iat") = some iat) (hnow : now < iat * second) :
      FirstFailure cfg now payload token 11
  | expMalformed (iat : ℤ) (h : verifyTokenSignature cfg.crypto token theAtSecret = true)
      (haccess : AccessGranted cfg payload token)
      (hiat : claimNumber token (str "iat") = some iat) (hnow : iat * second ≤ now)
      (hexp : claimNumber token (str "exp") = none) : FirstFailure cfg now payload token 15
  | expired (iat exp : ℤ) (h : verifyTokenSignature cfg.crypto token theAtSecret = true)
      (haccess : AccessGranted cfg payload token)
      (hiat : claimNumber token (str "iat") = some iat) (hnow : iat * second ≤ now)
      (hexp : claimNumber token (str "exp") = some exp) (hlate : exp * second < now) :
      FirstFailure cfg now payload token 16

section Access

variable {cfg : Config} {purpose action path : GoString}

theorem validatePurposeAndAccessPermission_eq (cfg : Config) (purpose action path : GoString) :
    validatePurposeAndAccessPermission cfg purpose action path =
      match (listings cfg purpose).find? fun a => a.path = path with
      | some a => if action = str "set" ∧ a.permission = str "read-only" then 61 else 0
      | none => 60 := by
  rw [listings, List.find?_flatMap]
  rfl

theorem find?_listings {a : AccessElement}
    (h : (listings cfg purpose).find? (fun a => a.path = path) = some a) :
    ∃ before after, listings cfg purpose = before ++ a :: after ∧
      (∀ b ∈ before, b.path ≠ path) ∧ a.path = path := by
  obtain ⟨hpath, before, after, hlist, hbefore⟩ := List.find?_eq_some_iff_append.mp h
  refine ⟨before, after, hlist, fun b hb => ?_, by simpa using hpath⟩
  simpa using hbefore b hb

/-- The first listing of a path is the only one that decides. -/
theorem granted_iff {a : AccessElement}
    (h : (listings cfg purpose).find? (fun a => a.path = path) = some a) :
    Granted cfg purpose action path ↔ a.Permits action := by
  constructor
  · rintro ⟨before, b, after, hlist, hbefore, hpath, hpermits⟩
    have hfind : (listings cfg purpose).find? (fun a => a.path = path) = some b := by
      rw [hlist, List.find?_append, List.find?_eq_none.mpr (by simpa using hbefore)]
      simp [hpath]
    rw [hfind] at h
    rwa [← Option.some.inj h]
  · intro hpermits
    obtain ⟨before, after, hlist, hbefore, hpath⟩ := find?_listings h
    exact ⟨before, a, after, hlist, hbefore, hpath, hpermits⟩

theorem access_eq_zero_iff :
    validatePurposeAndAccessPermission cfg purpose action path = 0 ↔
      Granted cfg purpose action path := by
  rw [validatePurposeAndAccessPermission_eq]
  cases hfind : (listings cfg purpose).find? fun a => a.path = path with
  | none =>
    constructor
    · intro h
      simp at h
    · rintro ⟨before, a, after, hlist, -, hpath, -⟩
      have hnone := List.find?_eq_none.mp hfind a (by rw [hlist]; simp)
      simp [hpath] at hnone
  | some a =>
    rw [granted_iff hfind, AccessElement.Permits]
    by_cases hset : action = str "set" <;> by_cases hread : a.permission = str "read-only" <;>
      simp [hset, hread]

/-- The code of a path that is not granted. -/
theorem access_of_not_granted (h : ¬ Granted cfg purpose action path) :
    (validatePurposeAndAccessPermission cfg purpose action path = 60 ∧
      ∀ a ∈ listings cfg purpose, a.path ≠ path) ∨
    (validatePurposeAndAccessPermission cfg purpose action path = 61 ∧
      ∃ a ∈ listings cfg purpose, a.path = path) := by
  rw [validatePurposeAndAccessPermission_eq]
  cases hfind : (listings cfg purpose).find? fun a => a.path = path with
  | none => exact .inl ⟨rfl, by simpa using List.find?_eq_none.mp hfind⟩
  | some a =>
    rw [granted_iff hfind, AccessElement.Permits, Classical.not_imp, not_not] at h
    obtain ⟨before, after, hlist, -, hpath⟩ := find?_listings hfind
    exact .inr ⟨if_pos h, a, by rw [hlist]; simp, hpath⟩

theorem validateRequestAccess_eq (cfg : Config) (purpose action : GoString)
    (paths : List GoString) :
    validateRequestAccess cfg purpose action paths = (((requestedPaths cfg paths).map
      (validatePurposeAndAccessPermission cfg purpose action)).find?
        fun status => status ≠ 0).getD 0 := rfl

theorem validateRequestAccess_eq_zero_iff {paths : List GoString} :
    validateRequestAccess cfg purpose action paths = 0 ↔
      ∀ path ∈ requestedPaths cfg paths, Granted cfg purpose action path := by
  rw [validateRequestAccess_eq]
  cases hfind : ((requestedPaths cfg paths).map
      (validatePurposeAndAccessPermission cfg purpose action)).find? fun status => status ≠ 0 with
  | none =>
    refine iff_of_true rfl fun path hpath => ?_
    have hzero := List.find?_eq_none.mp hfind _ (List.mem_map_of_mem hpath)
    exact access_eq_zero_iff.mp (by simpa using hzero)
  | some status =>
    have hne : status ≠ 0 := by simpa using List.find?_some hfind
    refine iff_of_false hne fun hall => ?_
    obtain ⟨path, hpath, rfl⟩ := List.mem_map.mp (List.mem_of_find?_eq_some hfind)
    exact hne (access_eq_zero_iff.mpr (hall path hpath))

/-- The first path that is not granted gives the code. -/
theorem validateRequestAccess_ne_zero {paths : List GoString}
    (h : validateRequestAccess cfg purpose action paths ≠ 0) :
    ∃ before path after, requestedPaths cfg paths = before ++ path :: after ∧
      (∀ p ∈ before, Granted cfg purpose action p) ∧ ¬ Granted cfg purpose action path ∧
      validateRequestAccess cfg purpose action paths =
        validatePurposeAndAccessPermission cfg purpose action path := by
  rw [validateRequestAccess_eq, List.find?_map] at h ⊢
  cases hfind : (requestedPaths cfg paths).find? ((fun status => decide (status ≠ 0)) ∘
      validatePurposeAndAccessPermission cfg purpose action) with
  | none =>
    rw [hfind] at h
    simp at h
  | some path =>
    obtain ⟨hpath, before, after, hlist, hbefore⟩ := List.find?_eq_some_iff_append.mp hfind
    refine ⟨before, path, after, hlist, fun p hp => ?_, fun hgranted => ?_, rfl⟩
    · exact access_eq_zero_iff.mp (by simpa using hbefore p hp)
    · simp [access_eq_zero_iff.mpr hgranted] at hpath

end Access

section Checks

variable {cfg : Config} {now : ℤ} {payload : AtValidatePayload} {token : GoString}

/-- The code of the time checks. -/
theorem validateTokenExpiry_some {res : ℤ} (h : validateTokenExpiry now token = some res) :
    (res = 10 ∧ claimNumber token (str "iat") = none) ∨
    ∃ iat, claimNumber token (str "iat") = some iat ∧ ((res = 11 ∧ now < iat * second) ∨
      (iat * second ≤ now ∧ ((res = 15 ∧ claimNumber token (str "exp") = none) ∨
        ∃ exp, claimNumber token (str "exp") = some exp ∧ ((res = 16 ∧ exp * second < now) ∨
          (res = 0 ∧ now ≤ exp * second))))) := by
  unfold claimNumber
  simp only [validateTokenExpiry, Option.bind_eq_bind, Option.bind_eq_some_iff] at h
  obtain ⟨iatStr, hiatStr, h⟩ := h
  rw [hiatStr, Option.bind_some]
  cases hiat : atoi iatStr with
  | none =>
    simp only [hiat, Option.some.injEq] at h
    exact .inl ⟨h.symm, rfl⟩
  | some iat =>
    refine .inr ⟨iat, rfl, ?_⟩
    simp only [hiat] at h
    split at h
    · next hearly => exact .inl ⟨(Option.some.inj h).symm, hearly⟩
    · next hearly =>
      refine .inr ⟨not_lt.mp hearly, ?_⟩
      obtain ⟨expStr, hexpStr, h⟩ := Option.bind_eq_some_iff.mp h
      rw [hexpStr, Option.bind_some]
      cases hexp : atoi expStr with
      | none =>
        simp only [hexp, Option.some.injEq] at h
        exact .inl ⟨h.symm, rfl⟩
      | some exp =>
        refine .inr ⟨exp, rfl, ?_⟩
        simp only [hexp] at h
        split at h
        · next hlate => exact .inl ⟨(Option.some.inj h).symm, hlate⟩
        · next hlate => exact .inr ⟨(Option.some.inj h).symm, not_lt.mp hlate⟩

/-- The checks on a token give 0, or the code of the first check that fails. -/
theorem validateToken_spec {res : ℤ} (h : validateToken cfg now payload token = some res) :
    (res = 0 ∧ Valid cfg (fun purpose => Granted cfg purpose payload.action) now payload token) ∨
      (res ≠ 0 ∧ FirstFailure cfg now payload token res) := by
  unfold validateToken at h
  split at h
  · next hsignature =>
    obtain rfl := Option.some.inj h
    exact .inr ⟨by decide, .signature (by simpa using hsignature)⟩
  · next hsignature =>
    rw [not_not] at hsignature
    simp only [Option.bind_eq_bind, Option.bind_eq_some_iff] at h
    obtain ⟨purpose, hpurpose, h⟩ := h
    split at h
    · next hres =>
      obtain rfl := Option.some.inj h
      refine .inr ⟨hres, ?_⟩
      obtain ⟨before, path, after, hpaths, hbefore, hpath, hcode⟩ :=
        validateRequestAccess_ne_zero hres
      rw [hcode]
      rcases access_of_not_granted hpath with ⟨hcode, hunlisted⟩ | ⟨hcode, hlisted⟩
      · rw [hcode]
        exact .unlisted purpose path before after hsignature hpurpose hpaths hbefore hunlisted
      · rw [hcode]
        exact .readOnly purpose path before after hsignature hpurpose hpaths hbefore hlisted hpath
    · next hres =>
      rw [not_not] at hres
      have haccess : AccessGranted cfg payload token :=
        ⟨purpose, hpurpose, validateRequestAccess_eq_zero_iff.mp hres⟩
      rcases validateTokenExpiry_some h with ⟨rfl, hiat⟩ |
        ⟨iat, hiat, ⟨rfl, hearly⟩ | ⟨hissued, ⟨rfl, hexp⟩ |
          ⟨exp, hexp, ⟨rfl, hlate⟩ | ⟨rfl, hunexpired⟩⟩⟩⟩
      · exact .inr ⟨by decide, .iatMalformed hsignature haccess hiat⟩
      · exact .inr ⟨by decide, .iatFuture iat hsignature haccess hiat hearly⟩
      · exact .inr ⟨by decide, .expMalformed iat hsignature haccess hiat hissued hexp⟩
      · exact .inr ⟨by decide, .expired iat exp hsignature haccess hiat hissued hexp hlate⟩
      · exact .inl ⟨rfl, hsignature, haccess, ⟨iat, hiat, hissued⟩, ⟨exp, hexp, hunexpired⟩⟩

/-- No token is valid and fails a check. -/
theorem FirstFailure.not_valid {res : ℤ} (h : FirstFailure cfg now payload token res) :
    ¬ Valid cfg (fun purpose => Granted cfg purpose payload.action) now payload token := by
  rintro ⟨hsignature, ⟨purpose, hpurpose, hall⟩, ⟨iat, hiat, hissued⟩, ⟨exp, hexp, hunexpired⟩⟩
  have hdenied : ∀ {purpose' path before after},
      extractFromToken token (str "scp") = some purpose' →
      requestedPaths cfg payload.paths = before ++ path :: after →
      Granted cfg purpose' payload.action path := by
    intro purpose' path before after hpurpose' hpaths
    rw [hpurpose] at hpurpose'
    obtain rfl := Option.some.inj hpurpose'
    exact hall path (by rw [hpaths]; simp)
  cases h with
  | signature h => simp [h] at hsignature
  | unlisted purpose' path before after _ hpurpose' hpaths _ hpath =>
    obtain ⟨front, a, rest, hlist, -, ha, -⟩ := hdenied hpurpose' hpaths
    exact hpath a (by rw [hlist]; simp) ha
  | readOnly purpose' path before after _ hpurpose' hpaths _ _ hpath =>
    exact hpath (hdenied hpurpose' hpaths)
  | iatMalformed _ _ h => simp [h] at hiat
  | iatFuture iat' _ _ h hearly =>
    rw [hiat] at h
    obtain rfl := Option.some.inj h
    omega
  | expMalformed _ _ _ _ _ h => simp [h] at hexp
  | expired _ exp' _ _ _ _ h hlate =>
    rw [hexp] at h
    obtain rfl := Option.some.inj h
    omega

/-- A token with a valid signature is checked to the end where its claims can be read. -/
theorem validateToken_ne_none
    (hread : ∀ k ∈ [str "scp", str "iat", str "exp"], extractFromToken token k ≠ none) :
    validateToken cfg now payload token ≠ none := by
  obtain ⟨purpose, hpurpose⟩ := Option.ne_none_iff_exists'.mp (hread (str "scp") (by simp))
  obtain ⟨iatStr, hiat⟩ := Option.ne_none_iff_exists'.mp (hread (str "iat") (by simp))
  obtain ⟨expStr, hexp⟩ := Option.ne_none_iff_exists'.mp (hread (str "exp") (by simp))
  have hexpiry : validateTokenExpiry now token ≠ none := by
    simp only [validateTokenExpiry, hiat, hexp, Option.bind_eq_bind, Option.bind_some]
    cases atoi iatStr with
    | none => simp
    | some iat =>
      cases atoi expStr with
      | none => dsimp only; split <;> simp
      | some exp => dsimp only; split <;> [simp; split <;> simp]
  unfold validateToken
  split
  · simp
  · simp only [hpurpose, Option.bind_eq_bind, Option.bind_some]
    split
    · simp
    · exact hexpiry

end Checks

theorem getCompleteToken_eq (s : State) (text : GoString) :
    getCompleteToken s text = (resolvedToken s text).getD [] := by
  unfold getCompleteToken resolvedToken
  cases firstSlot (fun e => e.matchesToken text) s.activeList <;> rfl

/-- The answer says that the token is valid. -/
def AnswersZero (response : GoString) : Prop :=
  (str "\x7b\"validation\":\"0\"").isPrefixOf response = true

instance (response : GoString) : Decidable (AnswersZero response) := by
  unfold AnswersZero
  infer_instance

def errorAnswer (code : ℤ) : GoString :=
  str "\x7b\"validation\":\"" ++ itoa code ++ str "\"\x7d"

/-- A request is answered by 0 exactly where its text resolves to a stored token that is
valid for it, the first listing of each path deciding, and else by the code of the first
check that fails; without an answer stays only a claim that cannot be read. -/
theorem token_validation_sound_complete (cfg : Config) (m : Moment) (s : State)
    (input : GoString) (payload : AtValidatePayload) (hdecode : decodeValidate m input = some payload) :
    (∀ response, tokenValidationResponse cfg m s input = some response →
      (AnswersZero response ↔ ∃ token, resolvedToken s payload.token = some token ∧
        Valid cfg (fun purpose => Granted cfg purpose payload.action) m.now payload token) ∧
      (¬ AnswersZero response → ∃ code, response = errorAnswer code ∧
        FirstFailure cfg m.now payload (getCompleteToken s payload.token) code)) ∧
    (tokenValidationResponse cfg m s input = none →
      ∃ k ∈ [str "scp", str "iat", str "exp"],
        extractFromToken (getCompleteToken s payload.token) k = none) := by
  have hvalid : (∃ token, resolvedToken s payload.token = some token ∧
      Valid cfg (fun purpose => Granted cfg purpose payload.action) m.now payload token) ↔
      Valid cfg (fun purpose => Granted cfg purpose payload.action) m.now payload
        (getCompleteToken s payload.token) := by
    rw [getCompleteToken_eq]
    cases resolvedToken s payload.token with
    | none =>
      constructor
      · rintro ⟨token, htoken, -⟩
        simp at htoken
      · intro h
        have hsignature := h.signature
        simp [verifyTokenSignature_nil] at hsignature
    | some token => simp
  constructor
  · intro response h
    have hzero := tokenValidationResponse_valid hdecode h
    simp only [tokenValidationResponse, hdecode, Option.bind_eq_bind,
      Option.bind_eq_some_iff] at h
    obtain ⟨res, hres, h⟩ := h
    obtain ⟨hpasses, -⟩ := validateToken_some hres
    have hanswer : AnswersZero response ↔ res = 0 := by
      rw [AnswersZero, hzero, hpasses]
    rw [hvalid, hanswer]
    rcases validateToken_spec hres with ⟨rfl, hv⟩ | ⟨hne, hfail⟩
    · exact ⟨iff_of_true rfl hv, fun hno => absurd rfl hno⟩
    · refine ⟨iff_of_false hne hfail.not_valid, fun _ => ⟨res, ?_, hfail⟩⟩
      rw [if_pos hne] at h
      exact (Option.some.inj h).symm
  · intro h
    by_contra hno
    have hread : ∀ k ∈ [str "scp", str "iat", str "exp"],
        extractFromToken (getCompleteToken s payload.token) k ≠ none := by
      intro k hk hnone
      exact hno ⟨k, hk, hnone⟩
    obtain ⟨res, hres⟩ := Option.ne_none_iff_exists'.mp
      (@validateToken_ne_none cfg m.now payload _ hread)
    simp only [tokenValidationResponse, hdecode, hres, Option.bind_eq_bind, Option.bind_some] at h
    split at h
    · simp at h
    · split at h <;> simp at h

deriving instance DecidableEq for AtValidatePayload

/-- The token of sampleValidation. -/
def sampleToken : GoString := str (
  "eyJhbGciOiJIUzI1NiIsInR5cCI6IkpXVCJ9." ++
  "eyJpYXQiOiIxNzAwMDAwMDAwIiwiZXhwIjoiMTcwMDAwMzYwMCIsInNjcCI6ImZ1ZWwiLCJjbHgiOiJvd25lcitv" ++
  "ZW0rY2FyIiwiYXVkIjoidzNvcmcvZ2VuMiIsImp0aSI6IjRmYzIifQ." ++
  "SAyLSDTI03MvEyzCHnhy0s3VHucNF-uIqy7s1e-ZVS8")

/-- The state in which that token is active. -/
def activeSample : State := (State.initial 0 sampleMoment.now).setActive 0
  { gatingId := 667, atoken := sampleToken, atokenHandle := extractSignature sampleToken,
    atExpiryTime := str "1700003600" }

/-- A purpose that lists a signal twice. -/
def listedTwice : Config := { sampleConfig false with
  pList := [{
    short := str "fuel"
    context := [{ user := [str "owner"], app := [str "oem"], device := [str "car"] }]
    access := some [{ path := str "Vehicle.FuelLevel", permission := str "read-only" },
      { path := str "Vehicle.FuelLevel", permission := str "read-write" }] }] }

/-- A request to validate the handle of the sample token. -/
def handleRequest (action : String) : GoString :=
  str "\x7b\"token\":\"SAyLSDTI03MvEyzCHnhy0s3VHucNF-uIqy7s1e-ZVS8\"," ++
  str "\"paths\":\"Vehicle.FuelLevel\",\"action\":\"" ++ str action ++
  str "\",\"validation\":\"2\"\x7d"

def handlePayload (action : String) : AtValidatePayload where
  token := str "SAyLSDTI03MvEyzCHnhy0s3VHucNF-uIqy7s1e-ZVS8"
  paths := [str "Vehicle.FuelLevel"]
  action := str action
  validation := str "2"

theorem resolvedToken_handle (action : String) :
    resolvedToken activeSample (handlePayload action).token = some sampleToken := by
  have h : resolvedToken activeSample (str "SAyLSDTI03MvEyzCHnhy0s3VHucNF-uIqy7s1e-ZVS8") =
    some sampleToken := by decide +kernel
  exact h

/-- A get by the handle is answered by 0. -/
theorem token_validation_get : ∃ response,
    tokenValidationResponse (sampleConfig false) sampleMoment activeSample (handleRequest "get") =
      some response ∧
    ∃ token, resolvedToken activeSample (handlePayload "get").token = some token ∧
      Valid (sampleConfig false) (fun purpose => Granted (sampleConfig false) purpose (str "get"))
        sampleMoment.now (handlePayload "get") token := by
  obtain ⟨response, hresponse⟩ := Option.isSome_iff_exists.mp (show (tokenValidationResponse
    (sampleConfig false) sampleMoment activeSample (handleRequest "get")).isSome by decide +kernel)
  have hzero : ∀ response ∈ tokenValidationResponse (sampleConfig false) sampleMoment
    activeSample (handleRequest "get"), AnswersZero response := by decide +kernel
  exact ⟨response, hresponse, ((token_validation_sound_complete (sampleConfig false) sampleMoment
    activeSample (handleRequest "get") (handlePayload "get") (by decide +kernel)).1 response
      hresponse).1.mp (hzero response hresponse)⟩

/-- A signal listed first as read-only is denied to a set, though it is listed as read-write. -/
theorem listed_path_denied : ¬ ∀ cfg m s input payload response,
    decodeValidate m input = some payload →
    tokenValidationResponse cfg m s input = some response →
    (AnswersZero response ↔ ∃ token, resolvedToken s payload.token = some token ∧
      Valid cfg (fun purpose => Listed cfg purpose payload.action) m.now payload token) := by
  intro hall
  have hanswer := hall listedTwice sampleMoment activeSample (handleRequest "set")
    (handlePayload "set") (errorAnswer 61) (by decide +kernel) (by decide +kernel)
  have hno : ¬ AnswersZero (errorAnswer 61) := by decide +kernel
  refine hno (hanswer.mpr ⟨sampleToken, resolvedToken_handle "set", ?_⟩)
  have hlisted : Listed listedTwice (str "fuel") (str "set") (str "Vehicle.FuelLevel") :=
    ⟨{ path := str "Vehicle.FuelLevel", permission := str "read-write" },
      List.mem_cons_of_mem _ (List.mem_cons_self ..), rfl, fun _ => by decide⟩
  have hpaths : requestedPaths listedTwice [str "Vehicle.FuelLevel"] =
      [str "Vehicle.FuelLevel"] := by decide +kernel
  constructor
  · decide +kernel
  · refine ⟨str "fuel", by decide +kernel, fun path hpath => ?_⟩
    rw [handlePayload, hpaths, List.mem_singleton] at hpath
    exact hpath ▸ hlisted
  · exact ⟨1700000000, by decide +kernel, by decide⟩
  · exact ⟨1700003600, by decide +kernel, by decide⟩

end VissServer.AtServer
