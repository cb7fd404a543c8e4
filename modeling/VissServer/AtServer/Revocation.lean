import VissServer.AtServer.Steps

/-!
Tokens that were removed from the active list, and the requests that present them.
A removal only marks the slot, so the lookup of a presented text still finds the
removed token until another token is written over it.
-/
namespace VissServer.AtServer

open Go Utils Runs

/-- The tokens with their handles that a move removes from the active list. -/
def removedTokens (x : ServerMove) : List (GoString × GoString) :=
  (List.finRange LISTSIZE).filterMap fun i =>
    let e := x.before.activeList i
    if e.gatingId ≠ -1 ∧ (x.after.activeList i).gatingId = -1 then
      some (e.atoken, e.atokenHandle)
    else none

/-- The tokens that were removed and not issued again since. -/
def revoked : ServerHistory → List (GoString × GoString)
  | [] => []
  | x :: past => (removedTokens x ++ revoked past).filter fun p =>
      ¬ x.output.any fun
        | .issue _ atoken => atoken = p.1
        | _ => false

def isRevoked (past : ServerHistory) (text : GoString) : Bool :=
  (revoked past).any fun p => text = p.1 || text = p.2

/-- The decoded request of the core for the validation of a token. -/
def validationRequest (m : Moment) : Event → Option AtValidatePayload
  | .parent request =>
      if contains request (str "context") then none else decodeValidate m request
  | _ => none

def answersValid (effects : List Effect) : Bool :=
  effects.any fun
    | .parent response => (str "\x7b\"validation\":\"0\"").isPrefixOf response
    | _ => false

/-- A request that presents a revoked token or its handle is not answered by 0. -/
def RevocationFinal (past : ServerHistory) (x : ServerMove) : Prop :=
  ∀ payload ∈ validationRequest x.event.1 x.event.2, isRevoked past payload.token →
    answersValid x.output = false

/-- The checks on a token: its signature, the access of its purpose, its times. -/
def passesChecks (cfg : Config) (now : ℤ) (payload : AtValidatePayload) (token : GoString) :
    Bool :=
  verifyTokenSignature cfg.crypto token theAtSecret &&
    (extractFromToken token (str "scp")).any fun purpose =>
      validateRequestAccess cfg purpose payload.action payload.paths = 0 &&
        validateTokenExpiry now token = some 0

/-- A revoked text that is presented is in no slot any more, or the token of the first
slot that holds it fails the checks. -/
def RevokedOverwritten (cfg : Config) (past : ServerHistory) (x : ServerMove) : Prop :=
  ∀ payload ∈ validationRequest x.event.1 x.event.2, isRevoked past payload.token →
    ∀ i ∈ firstSlot (fun e => e.matchesToken payload.token) x.before.activeList,
      passesChecks cfg x.event.1.now payload (x.before.activeList i).atoken = false

instance (past : ServerHistory) (x : ServerMove) : Decidable (RevocationFinal past x) := by
  unfold RevocationFinal
  infer_instance

instance (cfg : Config) (past : ServerHistory) (x : ServerMove) :
    Decidable (RevokedOverwritten cfg past x) := by
  unfold RevokedOverwritten
  infer_instance

section

variable {cfg : Config} {now : ℤ} {payload : AtValidatePayload} {token : GoString}

theorem validateRequestAccess_code {purpose action : GoString} {paths : List GoString} :
    validateRequestAccess cfg purpose action paths ∈ ([0, 60, 61] : List ℤ) := by
  have hcode : ∀ path, validatePurposeAndAccessPermission cfg purpose action path ∈
      ([0, 60, 61] : List ℤ) := by
    intro path
    unfold validatePurposeAndAccessPermission
    split
    · split <;> simp
    · simp
  simp only [validateRequestAccess]
  generalize hsub : (paths.flatMap fun path =>
    if contains path (str "*") then cfg.searchNodes path else [path]) = subPaths
  cases hfind : (subPaths.map (validatePurposeAndAccessPermission cfg purpose action)).find?
      fun status => decide (status ≠ 0) with
  | none => exact List.mem_cons_self ..
  | some status =>
    obtain ⟨path, -, hpath⟩ := List.mem_map.mp (List.mem_of_find?_eq_some hfind)
    rw [Option.getD_some, ← hpath]
    exact hcode path

theorem validateTokenExpiry_code {res : ℤ} (h : validateTokenExpiry now token = some res) :
    res ∈ ([0, 10, 11, 15, 16] : List ℤ) := by
  simp only [validateTokenExpiry, Option.bind_eq_bind, Option.bind_eq_some_iff] at h
  obtain ⟨iatStr, -, h⟩ := h
  cases hiat : atoi iatStr with
  | none =>
    simp only [hiat, Option.some.injEq] at h
    simp [← h]
  | some iat =>
    simp only [hiat] at h
    by_cases hearly : now < iat * second
    · rw [if_pos hearly, Option.some.injEq] at h
      simp [← h]
    · simp only [if_neg hearly, Option.bind_eq_some_iff] at h
      obtain ⟨expStr, -, h⟩ := h
      cases hexp : atoi expStr with
      | none =>
        simp only [hexp, Option.some.injEq] at h
        simp [← h]
      | some exp =>
        simp only [hexp] at h
        by_cases hlate : exp * second < now
        · rw [if_pos hlate, Option.some.injEq] at h
          simp [← h]
        · rw [if_neg hlate, Option.some.injEq] at h
          simp [← h]

/-- The error code is 0 exactly where the checks pass, and else one of the code's. -/
theorem validateToken_some {res : ℤ} (h : validateToken cfg now payload token = some res) :
    (res = 0 ↔ passesChecks cfg now payload token = true) ∧
      res ∈ ([0, 5, 10, 11, 15, 16, 60, 61] : List ℤ) := by
  unfold validateToken at h
  unfold passesChecks
  by_cases hsignature : verifyTokenSignature cfg.crypto token theAtSecret = true
  · simp only [hsignature, not_true_eq_false, if_false, Option.bind_eq_bind,
      Option.bind_eq_some_iff] at h
    obtain ⟨purpose, hpurpose, h⟩ := h
    have hcode : validateRequestAccess cfg purpose payload.action payload.paths ∈
        ([0, 60, 61] : List ℤ) := validateRequestAccess_code
    simp only [hsignature, hpurpose, Option.any_some, Bool.true_and, Bool.and_eq_true,
      decide_eq_true_eq]
    by_cases haccess : validateRequestAccess cfg purpose payload.action payload.paths = 0
    · simp only [haccess, ne_eq, not_true_eq_false, if_false] at h
      refine ⟨by simp [haccess, h], ?_⟩
      have hexpiry := validateTokenExpiry_code h
      simp only [List.mem_cons, List.not_mem_nil, or_false] at hexpiry ⊢
      omega
    · rw [if_pos haccess, Option.some.injEq] at h
      rw [← h]
      refine ⟨by simp [haccess], ?_⟩
      simp only [List.mem_cons, List.not_mem_nil, or_false] at hcode ⊢
      omega
  · rw [if_pos hsignature, Option.some.injEq] at h
    simp [hsignature, ← h]

theorem verifyTokenSignature_nil (crypto : Crypto) (key : GoString) :
    verifyTokenSignature crypto [] key = false := rfl

/-- An empty token passes no check. -/
theorem passesChecks_nil : passesChecks cfg now payload [] = false := by
  simp [passesChecks, verifyTokenSignature_nil]

/-- Only the code 0 makes an answer that reads as 0. -/
theorem validation_isPrefixOf {res : ℤ} (h : res ∈ ([5, 10, 11, 15, 16, 60, 61] : List ℤ)) :
    (str "\x7b\"validation\":\"0\"").isPrefixOf
      (str "\x7b\"validation\":\"" ++ itoa res ++ str "\"\x7d") = false := by
  simp only [List.mem_cons, List.not_mem_nil, or_false] at h
  rcases h with rfl | rfl | rfl | rfl | rfl | rfl | rfl <;> decide +kernel

/-- The answer to a decoded request is 0 exactly where the token that the presented text
resolves to passes the checks. -/
theorem tokenValidationResponse_valid {m : Moment} {s : State} {input response : GoString}
    (hdecode : decodeValidate m input = some payload)
    (h : tokenValidationResponse cfg m s input = some response) :
    (str "\x7b\"validation\":\"0\"").isPrefixOf response =
      passesChecks cfg m.now payload (getCompleteToken s payload.token) := by
  simp only [tokenValidationResponse, hdecode, Option.bind_eq_bind, Option.bind_eq_some_iff] at h
  obtain ⟨res, hres, h⟩ := h
  obtain ⟨hzero, hcode⟩ := validateToken_some hres
  by_cases hres0 : res = 0
  · rw [hzero.mp hres0]
    rw [if_neg (not_not.mpr hres0)] at h
    have hzero : ∀ rest, (str "\x7b\"validation\":\"0\"").isPrefixOf
        (str "\x7b\"validation\":\"0\", \"gatingId\":\"" ++ rest) = true := fun rest =>
      List.isPrefixOf_iff_prefix.mpr
        ((List.isPrefixOf_iff_prefix.mp (by decide +kernel)).trans (List.prefix_append _ rest))
    split at h
    all_goals
      rw [Option.some.injEq] at h
      simp only [← h, List.append_assoc]
      exact hzero _
  · have hfail : passesChecks cfg m.now payload (getCompleteToken s payload.token) = false := by
      rw [← Bool.not_eq_true]
      exact fun hpass => hres0 (hzero.mpr hpass)
    rw [if_pos hres0, Option.some.injEq] at h
    rw [hfail, ← h]
    refine validation_isPrefixOf ?_
    simp only [List.mem_cons, List.not_mem_nil, or_false] at hcode ⊢
    omega

theorem answersValid_iff {m : Moment} {s : State} {input response : GoString}
    (hdecode : decodeValidate m input = some payload)
    (h : tokenValidationResponse cfg m s input = some response) :
    answersValid [.parent response] = false ↔
      ∀ i ∈ firstSlot (fun e => e.matchesToken payload.token) s.activeList,
        passesChecks cfg m.now payload (s.activeList i).atoken = false := by
  have hanswer : answersValid [.parent response] =
      passesChecks cfg m.now payload (getCompleteToken s payload.token) := by
    rw [← tokenValidationResponse_valid hdecode h]
    exact Bool.or_false _
  rw [hanswer, getCompleteToken]
  cases firstSlot (fun e => e.matchesToken payload.token) s.activeList with
  | none => exact iff_of_true passesChecks_nil fun i hi => nomatch hi
  | some i => exact ⟨fun h j hj => Option.some.inj hj ▸ h, fun h => h i rfl⟩

end

section

variable {cfg : Config} {past : ServerHistory} {x : ServerMove}

/-- A revoked text is answered by 0 exactly where a slot still holds a token under it
that passes the checks. -/
theorem revocationFinal_iff (hx : x.Of (serverStep cfg)) :
    RevocationFinal past x ↔ RevokedOverwritten cfg past x := by
  obtain ⟨s, ⟨m, e⟩, s', effects⟩ := x
  refine forall₃_congr fun payload hpayload _ => ?_
  cases e with
  | parent request =>
    by_cases hcontext : contains request (str "context") = true
    · change (if contains request (str "context") then none else decodeValidate m request) =
          some payload at hpayload
      rw [if_pos hcontext] at hpayload
      exact absurd hpayload (by simp)
    · have hdecode : decodeValidate m request = some payload := by
        change (if contains request (str "context") then none else decodeValidate m request) =
          some payload at hpayload
        rwa [if_neg hcontext] at hpayload
      change ((generateParentResponse cfg m s request).map fun r => (s, [Effect.parent r])) =
        some (s', effects) at hx
      rw [generateParentResponse, if_neg hcontext, Option.map_eq_some_iff] at hx
      obtain ⟨response, hresponse, heq⟩ := hx
      obtain ⟨rfl, rfl⟩ := Prod.mk.inj heq
      exact answersValid_iff hdecode hresponse
  | client request => simp [validationRequest] at hpayload
  | ecf message => simp [validationRequest] at hpayload
  | expiryTick => simp [validationRequest] at hpayload
  | deleteJti jti => simp [validationRequest] at hpayload

end

/-- In every run, no revoked token is accepted exactly when each validation request that
presents one comes after its slot was written again, or the token fails the checks. -/
theorem revocation_final_iff {cfg : Config} {h : ServerHistory} {s : State}
    (hrun : ServerRun cfg h s) :
    Always RevocationFinal h ↔ Always (RevokedOverwritten cfg) h :=
  hrun.always_iff (I := fun _ _ => True) (fun _ _ => trivial)
    (fun _ _ _ hx => revocationFinal_iff hx) fun _ _ _ _ _ => trivial

/-- A token that was cancelled after its expiry fails the checks. -/
theorem revocation_final_expired : ∃ h s, ServerRun (sampleConfig false) h s ∧
    h.length = 3 ∧ (∃ x ∈ h.head?, ∃ payload ∈ validationRequest x.event.1 x.event.2,
      isRevoked h.tail payload.token) ∧ Always RevocationFinal h := by
  obtain ⟨h, s, hrun, hlength, hpresented, hoverwritten⟩ := exists_serverRun (sampleConfig false)
    ([(sampleMoment, .client sampleRequest),
      (sampleMoment, .ecf (str
        "\x7b\"action\":\"consent-cancel\",\"messageId\":\"667\"\x7d")),
      ({ sampleMoment with now := 1800000000 * second }, .parent sampleValidation)])
    (fun h => h.length = 3 ∧ (∃ x ∈ h.head?, ∃ payload ∈
      validationRequest x.event.1 x.event.2, isRevoked h.tail payload.token) ∧
      Always (RevokedOverwritten (sampleConfig false)) h)
    (by decide +kernel)
  exact ⟨h, s, hrun, hlength, hpresented, (revocation_final_iff hrun).mpr hoverwritten⟩

/-- A token is accepted right after the cancel that removed it. -/
theorem revoked_token_accepted :
    ¬ ∀ cfg h s, ServerRun cfg h s → Always RevocationFinal h := by
  intro hall
  obtain ⟨h, s, hrun, hbad⟩ := exists_serverRun (sampleConfig false)
    ([.client sampleRequest,
      .ecf (str "\x7b\"action\":\"consent-cancel\",\"messageId\":\"667\"\x7d"),
      .parent sampleValidation].map fun e => (sampleMoment, e))
    (fun h => ¬ Always RevocationFinal h)
    (by decide +kernel)
  exact hbad (hall _ h s hrun)

end VissServer.AtServer
