import VissServer.AtServer.Replies

/-!
For which inputs the replies of the access token server are JSON objects with the strings that
were put into them.
-/
namespace VissServer.AtServer

open Go Utils

/-! ## Single replies -/

def isStringObject (text : GoString) : Bool :=
  match parseText text with
  | some (.obj members) => members.all fun p => (asString p.2).isSome
  | _ => false

theorem fixed_told_iff {text : GoString} :
    (Reply.fixed text).Told ↔ isStringObject text = true := by
  have htold : (Reply.fixed text).Told ↔ ∃ members, parseText text = some (.obj members) ∧
      ∀ p ∈ members, ∃ s, p.2 = .str s := by
    simp [Reply.Told, Reply.text, Reply.Means]
  rw [htold, isStringObject]
  constructor
  · rintro ⟨members, hread, hall⟩
    rw [hread]
    simpa [asString_isSome_iff] using hall
  · intro h
    split at h
    · next members hread => exact ⟨members, hread, by simpa [asString_isSome_iff] using h⟩
    · cases h

theorem object_told_iff {members : List SlotMember} (hne : members ≠ [])
    (h : ∀ p ∈ members, p.Fixed (maxNestingDepth - 1)) :
    (Reply.object members).Told ↔ ∀ p ∈ members, p.slot.Exact := by
  rw [← parseText_objectText_iff hne h]
  simp [Reply.Told, Reply.text, Reply.Means]

theorem textMember_fixed {depth : ℕ} {name s : GoString} (hname : isName name = true) :
    (textMember name s).Fixed depth :=
  SlotMember.fixed_of_isName hname rfl (by simp [textMember])

theorem spacedMember_fixed {depth : ℕ} {name s : GoString} (hname : isName name = true) :
    (spacedMember name s).Fixed depth :=
  SlotMember.fixed_of_isName hname rfl (by simp [spacedMember])

theorem literal_itoa (z : ℤ) : IsLiteral (itoa z) := isLiteral_of_isPlain isPlain_itoa

theorem session_told (g : ℤ) : (Reply.object (sessionMembers g)).Told := by
  have hfixed : ∀ p ∈ sessionMembers g, p.Fixed (maxNestingDepth - 1) := by
    simp only [sessionMembers, List.forall_mem_cons]
    exact ⟨spacedMember_fixed rfl, textMember_fixed rfl, textMember_fixed rfl, List.forall_mem_nil _⟩
  rw [object_told_iff (show sessionMembers g ≠ [] from List.cons_ne_nil _ _) hfixed]
  simp only [sessionMembers, List.forall_mem_cons]
  exact ⟨isLiteral_of_all rfl, literal_itoa g, isLiteral_of_all rfl, List.forall_mem_nil _⟩

theorem token_told_iff {atoken : GoString} :
    (Reply.object (tokenMembers atoken)).Told ↔ IsLiteral atoken := by
  have hfixed : ∀ p ∈ tokenMembers atoken, p.Fixed (maxNestingDepth - 1) := by
    simp only [tokenMembers, List.forall_mem_cons]
    exact ⟨spacedMember_fixed rfl, textMember_fixed rfl, List.forall_mem_nil _⟩
  rw [object_told_iff (show tokenMembers atoken ≠ [] from List.cons_ne_nil _ _) hfixed]
  simp only [tokenMembers, List.forall_mem_cons]
  exact ⟨fun h => h.2.1, fun h => ⟨isLiteral_of_all rfl, h, List.forall_mem_nil _⟩⟩

theorem consented_told_iff {atoken consent : GoString} :
    (Reply.object (consentedMembers atoken consent)).Told ↔
      IsLiteral atoken ∧ IsLiteral consent := by
  have hfixed : ∀ p ∈ consentedMembers atoken consent, p.Fixed (maxNestingDepth - 1) := by
    simp only [consentedMembers, List.forall_mem_cons]
    exact ⟨spacedMember_fixed rfl, textMember_fixed rfl, textMember_fixed rfl, List.forall_mem_nil _⟩
  have hne : consentedMembers atoken consent ≠ [] := List.cons_ne_nil _ _
  rw [object_told_iff hne hfixed]
  simp only [consentedMembers, List.forall_mem_cons]
  exact ⟨fun h => ⟨h.2.1, h.2.2.1⟩, fun h => ⟨isLiteral_of_all rfl, h.1, h.2, List.forall_mem_nil _⟩⟩

theorem validation_told (res : ℤ) : (Reply.object (validationMembers res)).Told := by
  have hfixed : ∀ p ∈ validationMembers res, p.Fixed (maxNestingDepth - 1) := by
    simp only [validationMembers, List.forall_mem_cons]
    exact ⟨textMember_fixed rfl, List.forall_mem_nil _⟩
  rw [object_told_iff (show validationMembers res ≠ [] from List.cons_ne_nil _ _) hfixed]
  simp only [validationMembers, List.forall_mem_cons]
  exact ⟨literal_itoa res, List.forall_mem_nil _⟩

theorem valid_told_iff {gatingId tokenHandle : GoString} (hid : IsLiteral gatingId) :
    (Reply.object (validMembers gatingId tokenHandle)).Told ↔ IsLiteral tokenHandle := by
  have hfixed : ∀ p ∈ validMembers gatingId tokenHandle, p.Fixed (maxNestingDepth - 1) := by
    simp only [validMembers, List.cons_append, List.nil_append, List.forall_mem_cons]
    refine ⟨textMember_fixed rfl, textMember_fixed rfl, ?_⟩
    split
    · simp only [List.forall_mem_cons]
      exact ⟨textMember_fixed rfl, List.forall_mem_nil _⟩
    · exact List.forall_mem_nil _
  have hne : validMembers gatingId tokenHandle ≠ [] := List.cons_ne_nil _ _
  rw [object_told_iff hne hfixed]
  simp only [validMembers, List.cons_append, List.nil_append, List.forall_mem_cons]
  split
  · simp only [List.forall_mem_cons]
    exact ⟨fun h => h.2.2.1, fun h => ⟨isLiteral_of_all rfl, hid, h, List.forall_mem_nil _⟩⟩
  · next hempty =>
    rw [not_not.mp hempty]
    exact iff_of_true ⟨isLiteral_of_all rfl, hid, List.forall_mem_nil _⟩ isLiteral_nil

theorem literal_listValue {depth : ℕ} {paths : List GoString} :
    Literal (depth + 1) (listValue (paths.map Json.str)) ↔ ∀ path ∈ paths, IsLiteral path := by
  match paths with
  | [] => simp [listValue, Literal]
  | [path] => simp [listValue, Literal]
  | path :: path' :: paths => simp [listValue, Literal]

theorem noAccess_told_iff {paths : List GoString} :
    (Reply.noAccess paths).Told ↔ paths ≠ [] ∧ ∀ path ∈ paths, IsLiteral path := by
  by_cases hempty : paths = []
  · subst hempty
    simp [Reply.Told, Reply.text]
  · obtain ⟨depth, hdepth⟩ : ∃ depth, maxNestingDepth = depth + 2 := ⟨9998, rfl⟩
    have hitems : Textual (depth + 1) (listValue (paths.map Json.str)) := by
      refine textual_listValue fun j hj => ?_
      obtain ⟨path, -, rfl⟩ := List.mem_map.mp hj
      cases depth <;> trivial
    have hvalue : Textual maxNestingDepth
        (.obj [(str "no_access", listValue (paths.map Json.str))]) := by
      rw [hdepth]
      refine ⟨by simp, fun p hp => ?_⟩
      rw [List.mem_singleton.mp hp]
      exact ⟨isLiteral_of_all rfl, .inr hitems⟩
    have htext : (Reply.noAccess paths).text =
        some (rawText [32] (.obj [(str "no_access", listValue (paths.map Json.str))])) := by
      obtain ⟨path, paths, rfl⟩ := List.exists_cons_of_ne_nil hempty
      simp [Reply.text, rawText, rawMembers]
      rfl
    have hliteral : Literal maxNestingDepth
        (.obj [(str "no_access", listValue (paths.map Json.str))]) ↔
          ∀ path ∈ paths, IsLiteral path := by
      rw [hdepth, Literal, List.forall_mem_singleton, literal_listValue]
    have hread := (parseText_self_iff isSpace_gap hvalue).trans
      hliteral
    simp only [Reply.Told, htext, Option.some.injEq, exists_eq_left', Reply.Means, hread, ne_eq,
      hempty, not_false_eq_true, true_and]

/-- The member of the text for a session without a consent, whose value is a number. -/
def openMember (gatingId : ℤ) : SlotMember where
  name := str "sessionId"
  slot := .value (itoa gatingId) (.num (itoa gatingId)) (.num (itoa gatingId))

theorem openMember_fixed {depth : ℕ} (g : ℤ) : (openMember g).Fixed depth := by
  refine SlotMember.fixed_of_isName rfl rfl ?_
  rintro _ _ _ ⟨⟩
  exact solid_marshal (v := .num (itoa g)) (by cases depth <;> exact numeral_itoa g)

theorem notSet_text (g : ℤ) : (Reply.notSet g).text =
    some (123 :: (spacedMember (str "action") (str "at-inquiry")).text
      (44 :: 32 :: (openMember g).text (34 :: str ", \"consent\":\"NOT_SET\"\x7d"))) := by
  simp only [Reply.text, List.append_assoc]
  simp [SlotMember.text, spacedMember, openMember, Slot.text]
  rfl

/-- The text for a session without a consent has a quote behind a number. -/
theorem notSet_not_told (g : ℤ) : ¬ (Reply.notSet g).Told := by
  rintro ⟨text, htext, hread⟩
  rw [notSet_text, Option.some.injEq] at htext
  obtain ⟨depth, hdepth⟩ : ∃ depth, maxNestingDepth = depth + 1 := ⟨9999, rfl⟩
  have haction : (spacedMember (str "action") (str "at-inquiry")).Fixed depth :=
    spacedMember_fixed rfl
  obtain ⟨t, ht⟩ : ∃ t, (spacedMember (str "action") (str "at-inquiry")).text
      (44 :: 32 :: (openMember g).text (34 :: str ", \"consent\":\"NOT_SET\"\x7d")) =
        34 :: 97 :: t := ⟨_, rfl⟩
  have hnone : readMembers (parseValue depth) (34 :: 97 :: t).length (34 :: 97 :: t) = none := by
    rw [List.length_cons, List.length_cons, ← ht, readMembers_slot haction,
      haction.read (isLiteral_of_all rfl) (notHead_cons (by decide) _), Option.bind_some,
      readNext_comma, readMembers_space, readMembers_slot (openMember_fixed g),
      (openMember_fixed g).read rfl (notHead_cons (by decide) _), Option.bind_some,
      readNext_other rfl (by decide) (by decide), Option.map_none]
  rw [Reply.Means, ← htext, ht, parseText_open hdepth, hnone] at hread
  cases hread

theorem isPlain_of_decodeSextet {c : UInt8} (h : (Base64.decodeSextet c).isSome) :
    isPlain c = true := by
  have hall : ∀ n < 256, (Base64.decodeSextet (UInt8.ofNat n)).isSome →
      isPlain (UInt8.ofNat n) = true := by decide +kernel
  have hc := hall c.toNat c.toNat_lt
  rw [UInt8.ofNat_toNat] at hc
  exact hc h

/-- An access token is a literal where there was a random number for it. -/
theorem literal_generateAt_iff {cfg : Config} {m : Moment} {payload : AtGenPayload} :
    IsLiteral (generateAt cfg m payload) ↔ m.uuid ≠ none := by
  constructor
  · intro h hnone
    have hquote : (34 : UInt8) ∈ generateAt cfg m payload := by
      rw [generateAt, hnone]
      change (34 : UInt8) ∈ str "\x7b\"error\": \"Internal error\"\x7d"
      decide
    exact (h.bytes 34 hquote).2.1 rfl
  · intro huuid
    obtain ⟨jti, hjti⟩ := Option.ne_none_iff_exists'.mp huuid
    have hencoded : ∀ s, ∀ c ∈ Base64.encode s, isPlain c = true :=
      fun s c hc => isPlain_of_decodeSextet (Base64.decodeSextet_of_mem_encode hc)
    refine isLiteral_of_isPlain fun c hc => ?_
    simp only [generateAt, hjti, JsonWebToken.getFullToken, JsonWebToken.symmSign,
      JsonWebToken.encode, List.mem_append] at hc
    rcases hc with (((hc | hc) | hc) | hc) | hc
    · exact hencoded _ c hc
    · rw [List.mem_singleton.mp hc]
      rfl
    · exact hencoded _ c hc
    · rw [List.mem_singleton.mp hc]
      rfl
    · exact hencoded _ c hc

/-! ## The consent-ask -/

/-- The paths and the permissions that the first purpose of a name lists are valid UTF-8, as
those of every list that was loaded from a file are. -/
def AccessValid (cfg : Config) (purpose : GoString) : Prop :=
  ∀ p, cfg.pList.find? (fun p => p.short = purpose) = some p →
    ∀ a ∈ p.accessList, ValidString a.path ∧ ValidString a.permission

theorem sanitizeItems_eq_map (items : List Json) : sanitizeItems items = items.map sanitize := by
  induction items with
  | nil => rfl
  | cons j items ih => rw [sanitizeItems, ih, List.map_cons]

theorem sanitize_access_iff {a : AccessElement} :
    sanitize (.obj [(str "Path", .str a.path), (str "Permission", .str a.permission)]) =
        .obj [(str "Path", .str a.path), (str "Permission", .str a.permission)] ↔
      ValidString a.path ∧ ValidString a.permission := by
  have hpath : sanitizeString (str "Path") = str "Path" := by decide
  have hpermission : sanitizeString (str "Permission") = str "Permission" := by decide
  simp [sanitize, sanitizeMembers, hpath, hpermission, sanitizeString_eq_self_iff]

theorem sanitize_signalAccess_iff {cfg : Config} {purpose : GoString} :
    sanitize (signalAccess cfg purpose) = signalAccess cfg purpose ↔ AccessValid cfg purpose := by
  unfold signalAccess AccessValid
  cases cfg.pList.find? fun p => p.short = purpose with
  | none => simp [sanitize]
  | some p =>
    simp only [Option.bind_some, Option.some.injEq, forall_eq', PurposeElement.accessList]
    cases p.access with
    | none => simp [sanitize]
    | some access =>
      rw [sanitize, sanitizeItems_eq_map, Json.arr.injEq]
      simp only [List.map_map, Option.getD_some, List.map_inj_left, Function.comp_apply,
        sanitize_access_iff]

theorem getSignalAccess_eq {cfg : Config} {purpose : GoString}
    (hconsent : checkifConsent cfg purpose = true) :
    getSignalAccess cfg purpose = marshal (signalAccess cfg purpose) := by
  obtain ⟨p, hp, hlisted⟩ := List.any_eq_true.mp hconsent
  simp only [Bool.and_eq_true] at hlisted
  have hfound : (cfg.pList.find? fun p => p.short = purpose).isSome :=
    List.find?_isSome.mpr ⟨p, hp, hlisted.1⟩
  obtain ⟨p', hp'⟩ := Option.isSome_iff_exists.mp hfound
  rw [getSignalAccess, signalAccess, hp', Option.bind_some]
  dsimp only
  cases p'.access with
  | none => rfl
  | some access => rfl

theorem printable_signalAccess (cfg : Config) (purpose : GoString) :
    Printable (maxNestingDepth - 1) (signalAccess cfg purpose) := by
  obtain ⟨depth, hdepth⟩ : ∃ depth, maxNestingDepth - 1 = depth + 2 := ⟨9997, rfl⟩
  rw [hdepth, signalAccess]
  split
  · trivial
  · intro j hj
    obtain ⟨a, -, rfl⟩ := List.mem_map.mp hj
    intro p hp
    rcases List.mem_pair.mp hp with rfl | rfl <;> cases depth <;> trivial

theorem consentAsk_told_iff {cfg : Config} {payload : AtGenPayload} {g : ℤ}
    (hconsent : checkifConsent cfg payload.purpose = true) :
    (Reply.object (consentAskMembers cfg payload g)).Told ↔
      IsLiteral (claim payload.agt.payloadClaims (str "clx")) ∧ IsLiteral payload.purpose ∧
        AccessValid cfg payload.purpose := by
  have hfixed : ∀ p ∈ consentAskMembers cfg payload g, p.Fixed (maxNestingDepth - 1) := by
    simp only [consentAskMembers, List.forall_mem_cons]
    refine ⟨spacedMember_fixed rfl, spacedMember_fixed rfl, spacedMember_fixed rfl,
      SlotMember.fixed_of_isName rfl rfl ?_, spacedMember_fixed rfl, List.forall_mem_nil _⟩
    rintro _ _ _ ⟨⟩
    rw [getSignalAccess_eq hconsent]
    exact solid_marshal (printable_signalAccess cfg payload.purpose)
  have hne : consentAskMembers cfg payload g ≠ [] := List.cons_ne_nil _ _
  rw [object_told_iff hne hfixed, ← sanitize_signalAccess_iff]
  simp only [consentAskMembers, List.forall_mem_cons]
  exact ⟨fun h => ⟨h.2.1, h.2.2.1, h.2.2.2.1⟩,
    fun h => ⟨isLiteral_of_all rfl, h.1, h.2.1, h.2.2, literal_itoa g, List.forall_mem_nil _⟩⟩

/-! ## Error texts -/

section Errors

variable {cfg : Config} {m : Moment} {s : State} {payload : AtGenPayload}

theorem decodeRequest_told {request errResponse : GoString}
    (h : decodeRequest cfg request = some (.inl errResponse)) : (Reply.fixed errResponse).Told := by
  have htold : ∀ text ∈ decodeErrors, isStringObject text = true := by decide
  exact fixed_told_iff.mpr (htold errResponse (decodeRequest_error h))

/-- The error for a time of issue that cannot be read lacks a quote, all others are JSON. -/
theorem validateRequest_told_iff {jtiCache cache : List GoString} {errResponse : GoString}
    (h : validateRequest cfg m jtiCache payload = some (errResponse, cache))
    (hne : errResponse ≠ []) : (Reply.fixed errResponse).Told ↔ ¬ Undated cfg payload := by
  have hundatedError : isStringObject undatedError = false := by decide
  have htold : ∀ text ∈ requestErrors, isStringObject text = true := by decide
  rw [fixed_told_iff]
  rcases validateRequest_error h with ⟨hundated, rfl⟩ | ⟨hdated, hmem⟩
  · exact iff_of_false (by simp [hundatedError]) (not_not.mpr hundated)
  · exact iff_of_true (htold errResponse ((List.mem_cons.mp hmem).resolve_left hne)) hdated

theorem consentReplyResponse_told {message response : GoString} {s' : State}
    (h : consentReplyResponse s message = some (s', response)) :
    isStringObject response = true := by
  unfold consentReplyResponse at h
  split at h
  · rw [← (Prod.mk.inj (Option.some.inj h)).2]
    decide
  · obtain ⟨id, -, h⟩ := Option.bind_eq_some_iff.mp h
    split at h
    · rw [← (Prod.mk.inj (Option.some.inj h)).2]
      decide
    · split at h
      · rw [← (Prod.mk.inj (Option.some.inj h)).2]
        decide
      · split at h
        · obtain ⟨consent, -, h⟩ := Option.bind_eq_some_iff.mp h
          rw [← (Prod.mk.inj (Option.some.inj h)).2]
          decide
        · rw [← (Prod.mk.inj (Option.some.inj h)).2]
          decide

theorem consentCancelResponse_told {message response : GoString} {s' : State}
    {cancels : List Effect} (h : consentCancelResponse s message = some (s', cancels, response)) :
    isStringObject response = true := by
  unfold consentCancelResponse at h
  split at h
  · rw [← (Prod.mk.inj (Prod.mk.inj (Option.some.inj h)).2).2]
    decide
  · obtain ⟨id, -, h⟩ := Option.bind_eq_some_iff.mp h
    split at h
    · rw [← (Prod.mk.inj (Prod.mk.inj (Option.some.inj h)).2).2]
      decide
    · split at h
      · rw [← (Prod.mk.inj (Prod.mk.inj (Option.some.inj h)).2).2]
        decide
      · split at h
        all_goals
          rw [← (Prod.mk.inj (Prod.mk.inj (Option.some.inj h)).2).2]
          decide

theorem ecfStep_told {message : GoString} {r : State × List Effect}
    (h : ecfStep s message = some r) : ∀ text ∈ ecfMessages r.2, isStringObject text = true := by
  unfold ecfStep generateEcfResponse at h
  split at h
  · obtain rfl := Option.some.inj h
    nofun
  · split at h
    · obtain rfl := Option.some.inj h
      nofun
    · split at h
      · obtain ⟨⟨s', response⟩, hr, rfl⟩ := Option.map_eq_some_iff.mp h
        exact List.forall_mem_singleton.mpr (consentReplyResponse_told hr)
      · split at h
        · obtain ⟨⟨s', cancels, response⟩, hr, rfl⟩ := Option.map_eq_some_iff.mp h
          have htold := consentCancelResponse_told hr
          obtain rfl | ⟨id, rfl⟩ := consentCancelResponse_effects hr
          · exact List.forall_mem_singleton.mpr htold
          · exact List.forall_mem_singleton.mpr htold
        · obtain rfl := Option.some.inj h
          exact List.forall_mem_singleton.mpr (by decide)

end Errors

/-! ## The replies of a step -/

/-- The payload of an at-request that can be decoded. -/
def decodedRequest (cfg : Config) : Event → Option AtGenPayload
  | .client request =>
      if contains request (str "at-request") then
        (decodeRequest cfg request).bind Sum.getRight?
      else none
  | _ => none

/-- The context of a no-scope request. -/
def noScopeId : Event → Option GoString
  | .parent request =>
      if contains request (str "context") then noScopeContext request else none
  | _ => none

/-- The payload of a validation request. -/
def validateId (m : Moment) : Event → Option AtValidatePayload
  | .parent request =>
      if contains request (str "context") then none else decodeValidate m request
  | _ => none

/-- The first scope of a list with a matching context. -/
def Decides (sList : List ScopeElement) (context : GoString) (e : ScopeElement) : Prop :=
  ∃ before after, sList = before ++ e :: after ∧
    (∀ b ∈ before, checkAuthorization b.context context = some false) ∧
    checkAuthorization e.context context = some true

/-- The inputs and states for which all replies are JSON: a grant token that is checked has a
time of issue, there is a random number for each token that is handed out, sessions have a
consent, and what is put between quotes is a literal. -/
structure RepliesSound (cfg : Config) (m : Moment) (s : State) (e : Event) : Prop where
  dated : ∀ payload, decodedRequest cfg e = some payload → ¬ Undated cfg payload
  ask : ∀ payload, accepted cfg m s e = some payload →
    checkifConsent cfg payload.purpose = true → s.ecfAvailable = true →
      (s.pendingSlot (-1) ≠ none → Extractable payload.token (str "exp")) →
        IsLiteral (claim payload.agt.payloadClaims (str "clx")) ∧ IsLiteral payload.purpose ∧
          AccessValid cfg payload.purpose
  token : ∀ payload, accepted cfg m s e = some payload →
    checkifConsent cfg payload.purpose = false → s.activeSlot (-1) = none → m.uuid ≠ none
  consent : ∀ g i, inquiryId e = some g → s.pendingSlot g = some i →
    (s.pendingList i).consent ≠ str "NOT_SET"
  consented : ∀ g i, inquiryId e = some g → s.pendingSlot g = some i →
    (s.pendingList i).consent ≠ str "NO" →
      (m.uuid ≠ none → IsLiteral (s.pendingList i).consent) ∧
        (m.uuid = none → s.activeSlot (-1) ≠ none)
  noAccess : ∀ context scope, noScopeId e = some context → Decides cfg.sList context scope →
    scope.noAccess ≠ [] ∧ ∀ path ∈ scope.noAccess, IsLiteral path
  handle : ∀ payload, validateId m e = some payload →
    validateToken cfg m.now payload (getCompleteToken s payload.token) = some 0 →
      IsLiteral (getGatingIdAndTokenHandle s (getCompleteToken s payload.token)).2

/-- What a handler puts together, where it gets to it, is told by texts. -/
def Tells (rs : MayPanic (List Reply)) : Prop := ∀ l, rs = some l → ∀ r ∈ l, r.Told

section Handlers

variable {cfg : Config} {m : Moment} {s : State} {payload : AtGenPayload} {g : ℤ}

theorem tells_some {l : List Reply} : Tells (some l) ↔ ∀ r ∈ l, r.Told := by simp [Tells]

theorem tells_one {r : Reply} : Tells (some [r]) ↔ r.Told := by simp [Tells]

theorem tells_bind {α : Type} {x : MayPanic α} {f : α → MayPanic (List Reply)} :
    Tells (x.bind f) ↔ ∀ a, x = some a → Tells (f a) := by
  cases x with
  | none => simp [Tells]
  | some a => simp

theorem tells_map {x : MayPanic Reply} :
    Tells (x.map fun r => [r]) ↔ ∀ r, x = some r → r.Told := by
  cases x with
  | none => simp [Tells]
  | some r => simp [Tells]

/-- Where a token is issued it is the one that generateAt makes. -/
theorem issueAt_told {f : GoString → Reply} {p : Prop}
    (hf : ∀ atoken, (f atoken).Told ↔ IsLiteral atoken ∧ p) :
    Tells ((issueAt cfg m s g payload).bind fun r => some [f r.2]) ↔
      (m.uuid ≠ none → p) ∧ (m.uuid = none → s.activeSlot (-1) ≠ none) := by
  have htoken : ∀ r, issueAt cfg m s g payload = some r → r.2 = generateAt cfg m payload := by
    intro r hr
    obtain ⟨s', -, hr⟩ := Option.bind_eq_some_iff.mp hr
    rw [← Option.some.inj hr]
  have hsome := @issueAt_isSome_iff cfg m s payload g
  have hliteral := @literal_generateAt_iff cfg m payload
  rw [tells_bind]
  simp only [tells_one, hf]
  constructor
  · intro h
    by_cases huuid : m.uuid = none
    · refine ⟨fun hne => absurd huuid hne, fun _ hslot => ?_⟩
      obtain ⟨r, hr⟩ := Option.isSome_iff_exists.mp (hsome.mpr fun hne => absurd hslot hne)
      have htold := (h r hr).1
      rw [htoken r hr, hliteral] at htold
      exact htold huuid
    · obtain ⟨r, hr⟩ := Option.isSome_iff_exists.mp (hsome.mpr fun _ => huuid)
      exact ⟨fun _ => (h r hr).2, fun hnone => absurd hnone huuid⟩
  · rintro ⟨hp, hslot⟩ r hr
    have huuid : m.uuid ≠ none := by
      intro hnone
      exact hsome.mp (Option.isSome_of_eq_some hr) (hslot hnone) hnone
    rw [htoken r hr, hliteral]
    exact ⟨huuid, hp huuid⟩

theorem grantReplies_tells : Tells (grantReplies cfg m s payload) ↔
    (checkifConsent cfg payload.purpose = true → s.ecfAvailable = true →
      (s.pendingSlot (-1) ≠ none → Extractable payload.token (str "exp")) →
        IsLiteral (claim payload.agt.payloadClaims (str "clx")) ∧ IsLiteral payload.purpose ∧
          AccessValid cfg payload.purpose) ∧
    (checkifConsent cfg payload.purpose = false → s.activeSlot (-1) = none → m.uuid ≠ none) := by
  unfold grantReplies
  cases hconsent : checkifConsent cfg payload.purpose with
  | true =>
    have htold := @consentAsk_told_iff cfg payload (newGatingId s) hconsent
    have hsome := @writeToPendingList_isSome_iff s payload m.now (newGatingId s)
    cases hecf : s.ecfAvailable with
    | true =>
      simp only [if_true, forall_const, Bool.true_eq_false, false_implies, and_true, ← hsome,
        Option.isSome_iff_exists, forall_exists_index]
      rw [Option.bind_eq_bind, tells_bind]
      simp only [tells_some, List.forall_mem_cons, htold, session_told, List.not_mem_nil,
        false_implies, implies_true, and_true]
    | false =>
      have hfixed : isStringObject (str
          "\x7b\"action\": \"at-request\", \"error\":\"consent framework not accessible\"\x7d") =
            true := by decide
      simp [tells_one, fixed_told_iff, hfixed]
  | false =>
    have hissue := @issueAt_told cfg m s payload (newGatingId s)
      (fun atoken => .object (tokenMembers atoken)) True
      (fun atoken => token_told_iff.trans (and_true _).symm.to_iff)
    simp only [Bool.false_eq_true, if_false, false_implies, true_and, forall_const]
    refine hissue.trans ⟨fun h hslot hnone => h.2 hnone hslot, fun h => ⟨fun _ => trivial, ?_⟩⟩
    exact fun hnone hslot => h hslot hnone

theorem validateRequest_undated (h : Undated cfg payload) (jtiCache : List GoString) :
    validateRequest cfg m jtiCache payload = some (undatedError, jtiCache) := by
  simp [validateRequest, h.1, h.2]
  rfl

/-- What the checks of a decoded payload lead to. -/
theorem validatedReplies_tells : Tells ((validateRequest cfg m s.jtiCache payload).bind fun r =>
      if r.1 = [] then grantReplies cfg m { s with jtiCache := r.2 } payload
      else some [.fixed r.1]) ↔
    ¬ Undated cfg payload ∧
      ∀ r, validateRequest cfg m s.jtiCache payload = some r → r.1 = [] →
        Tells (grantReplies cfg m s payload) := by
  have hstate : ∀ jtiCache, Tells (grantReplies cfg m { s with jtiCache } payload) ↔
      Tells (grantReplies cfg m s payload) := by
    intro jtiCache
    rw [grantReplies_tells, grantReplies_tells]
    rfl
  rw [tells_bind]
  constructor
  · intro h
    constructor
    · intro hundated
      have hvalidate := @validateRequest_undated cfg m payload hundated s.jtiCache
      have hne : undatedError ≠ [] := by decide
      have htold := h _ hvalidate
      rw [if_neg hne, tells_one, validateRequest_told_iff hvalidate hne] at htold
      exact htold hundated
    · intro r hr hempty
      have htold := h r hr
      rw [if_pos hempty] at htold
      exact (hstate r.2).mp htold
  · rintro ⟨hdated, hgrant⟩ r hr
    by_cases hempty : r.1 = []
    · rw [if_pos hempty]
      exact (hstate r.2).mpr (hgrant r hr hempty)
    · rw [if_neg hempty, tells_one]
      exact (validateRequest_told_iff hr hempty).mpr hdated

theorem requestReplies_tells {request : GoString}
    (hrequest : contains request (str "at-request") = true) :
    Tells (requestReplies cfg m s request) ↔
      (∀ payload, decodedRequest cfg (.client request) = some payload → ¬ Undated cfg payload) ∧
        ∀ payload, accepted cfg m s (.client request) = some payload →
          Tells (grantReplies cfg m s payload) := by
  unfold requestReplies decodedRequest accepted
  simp only [hrequest, if_true]
  cases hdecoded : decodeRequest cfg request with
  | none => simp [Tells]
  | some r =>
    cases r with
    | inl errResponse => simp [tells_one, decodeRequest_told hdecoded]
    | inr payload =>
      have hvalidated := @validatedReplies_tells cfg m s payload
      simp only [Option.bind_eq_bind, Option.bind_some, Sum.getRight?_inr, Option.some.injEq,
        forall_eq']
      refine hvalidated.trans (and_congr_right fun _ => ?_)
      cases validateRequest cfg m s.jtiCache payload with
      | none => simp
      | some r => by_cases hempty : r.1 = [] <;> simp [hempty]

theorem slotReplies_tells {i : Slot} : Tells (slotReplies cfg m s g i) ↔
    (s.pendingList i).consent ≠ str "NOT_SET" ∧ ((s.pendingList i).consent ≠ str "NO" →
      (m.uuid ≠ none → IsLiteral (s.pendingList i).consent) ∧
        (m.uuid = none → s.activeSlot (-1) ≠ none)) := by
  unfold slotReplies
  dsimp only
  by_cases hnotSet : (s.pendingList i).consent = str "NOT_SET"
  · rw [if_pos hnotSet, tells_one]
    exact iff_of_false (notSet_not_told g) fun h => h.1 hnotSet
  · rw [if_neg hnotSet, and_iff_right hnotSet]
    by_cases hno : (s.pendingList i).consent = str "NO"
    · rw [if_pos hno, tells_one, fixed_told_iff]
      exact iff_of_true (by decide) fun h => absurd hno h
    · have hissue := @issueAt_told cfg m (removeFromPendingList s i) (s.pendingList i).atGenData g
        (fun atoken => .object (consentedMembers atoken (s.pendingList i).consent)) _
        (fun atoken => consented_told_iff)
      rw [if_neg hno]
      exact hissue.trans ⟨fun h _ => h, fun h => h hno⟩

theorem inquiryReplies_tells {request : GoString}
    (hrequest : contains request (str "at-request") = false)
    (hinquiry : contains request (str "at-inquiry") = true) :
    Tells (inquiryReplies cfg m s request) ↔
      ∀ g i, inquiryId (.client request) = some g → s.pendingSlot g = some i →
        Tells (slotReplies cfg m s g i) := by
  have hid : inquiryId (.client request) = extractGatingId request := by
    simp [inquiryId, hrequest, hinquiry]
  have hfixed : isStringObject (str
      "\x7b\"action\": \"at-inquiry\", \"error\":\"404 - Not-found\"\x7d") = true := by
    decide
  rw [hid, inquiryReplies, Option.bind_eq_bind, tells_bind]
  refine forall_congr' fun g => ?_
  rw [forall_comm]
  refine forall_congr' fun _ => ?_
  cases s.pendingSlot g with
  | none => simp [tells_one, fixed_told_iff, hfixed]
  | some i => simp

/-! ## Replies to the core -/

theorem decides_cons_false {b e : ScopeElement} {sList : List ScopeElement} {context : GoString}
    (hb : checkAuthorization b.context context = some false) :
    Decides (b :: sList) context e ↔ Decides sList context e := by
  constructor
  · rintro ⟨before, after, hlist, hbefore, he⟩
    cases before with
    | nil =>
      obtain ⟨rfl, -⟩ := List.cons.inj hlist
      rw [hb] at he
      cases he
    | cons b' before =>
      exact ⟨before, after, (List.cons.inj hlist).2, (List.forall_mem_cons.mp hbefore).2, he⟩
  · rintro ⟨before, after, rfl, hbefore, he⟩
    exact ⟨b :: before, after, rfl, List.forall_mem_cons.mpr ⟨hb, hbefore⟩, he⟩

theorem decides_head {b e : ScopeElement} {sList : List ScopeElement} {context : GoString}
    (h : Decides (b :: sList) context e) (hb : checkAuthorization b.context context ≠ some false) :
    b = e ∧ checkAuthorization b.context context = some true := by
  obtain ⟨before, after, hlist, hbefore, he⟩ := h
  cases before with
  | nil =>
    obtain ⟨rfl, -⟩ := List.cons.inj hlist
    exact ⟨rfl, he⟩
  | cons b' before =>
    obtain ⟨rfl, -⟩ := List.cons.inj hlist
    exact absurd (hbefore b List.mem_cons_self) hb

theorem noAccessReply_tells {context : GoString} {sList : List ScopeElement} :
    (∀ r, noAccessReply context sList = some r → r.Told) ↔
      ∀ scope, Decides sList context scope →
        scope.noAccess ≠ [] ∧ ∀ path ∈ scope.noAccess, IsLiteral path := by
  induction sList with
  | nil =>
    simp only [noAccessReply, Option.some.injEq, forall_eq', noAccess_told_iff]
    exact iff_of_true ⟨List.cons_ne_nil _ _, List.forall_mem_singleton.mpr isLiteral_nil⟩
      (by simp [Decides])
  | cons b sList ih =>
    rw [noAccessReply]
    cases hb : checkAuthorization b.context context with
    | none =>
      refine iff_of_true (by simp) fun scope hscope => ?_
      have hhead := (decides_head hscope (by simp [hb])).2
      rw [hb] at hhead
      cases hhead
    | some valid =>
      cases valid with
      | true =>
        simp only [Option.bind_eq_bind, Option.bind_some, if_true, Option.some.injEq, forall_eq',
          noAccess_told_iff]
        constructor
        · intro h scope hscope
          rw [← (decides_head hscope (by simp [hb])).1]
          exact h
        · exact fun h => h b ⟨[], sList, rfl, by simp, hb⟩
      | false =>
        simp only [Option.bind_eq_bind, Option.bind_some, Bool.false_eq_true, if_false, ih,
          decides_cons_false hb]

theorem validationReply_tells {payload : AtValidatePayload} :
    (∀ r, validationReply cfg m s payload = some r → r.Told) ↔
      (validateToken cfg m.now payload (getCompleteToken s payload.token) = some 0 →
        IsLiteral (getGatingIdAndTokenHandle s (getCompleteToken s payload.token)).2) := by
  have hid : ∀ token, IsLiteral (getGatingIdAndTokenHandle s token).1 := by
    intro token
    unfold getGatingIdAndTokenHandle
    split
    · exact literal_itoa _
    · exact isLiteral_nil
  dsimp only [validationReply]
  cases validateToken cfg m.now payload (getCompleteToken s payload.token) with
  | none => simp
  | some res =>
    rw [Option.bind_eq_bind, Option.bind_some]
    by_cases hres : res = 0
    · subst hres
      simp [valid_told_iff (hid _)]
    · simp [hres, validation_told]

theorem parentReply_tells {request : GoString} :
    (∀ r, parentReply cfg m s request = some r → r.Told) ↔
      (∀ context scope, noScopeId (.parent request) = some context →
        Decides cfg.sList context scope →
          scope.noAccess ≠ [] ∧ ∀ path ∈ scope.noAccess, IsLiteral path) ∧
      ∀ payload, validateId m (.parent request) = some payload →
        validateToken cfg m.now payload (getCompleteToken s payload.token) = some 0 →
          IsLiteral (getGatingIdAndTokenHandle s (getCompleteToken s payload.token)).2 := by
  have hnoScope : isStringObject (str "\x7b\"no_access\":\"\"\x7d") = true := by decide
  have hmalformed : isStringObject (str "\x7b\"validation\":\"1\"\x7d") = true := by decide
  simp only [parentReply, noScopeId, validateId]
  cases contains request (str "context") with
  | true =>
    cases noScopeContext request with
    | none => simp [fixed_told_iff, hnoScope]
    | some context =>
      simp only [if_true, Option.some.injEq, noAccessReply_tells, reduceCtorEq, false_implies,
        implies_true, and_true]
      exact ⟨fun h _ scope hcontext => hcontext ▸ h scope, fun h scope => h context scope rfl⟩
  | false =>
    cases decodeValidate m request with
    | none => simp [fixed_told_iff, hmalformed]
    | some payload => simp [validationReply_tells]

end Handlers

/-- An event that is no request is sound. -/
theorem repliesSound_of_none {cfg : Config} {m : Moment} {s : State} {e : Event}
    (hdecoded : decodedRequest cfg e = none) (haccepted : accepted cfg m s e = none)
    (hinquiry : inquiryId e = none) (hnoScope : noScopeId e = none)
    (hvalidate : validateId m e = none) : RepliesSound cfg m s e :=
  ⟨by simp [hdecoded], by simp [haccepted], by simp [haccepted], by simp [hinquiry],
    by simp [hinquiry], by simp [hnoScope], by simp [hvalidate]⟩

/-- All replies of a step are JSON objects with the strings that were put into them if and only
if the input and the state are sound. -/
theorem repliesJson_iff (cfg : Config) (m : Moment) (s : State) (e : Event) :
    RepliesJson cfg m s e ↔ RepliesSound cfg m s e := by
  rw [repliesJson_told]
  cases e with
  | client request =>
    change Tells (clientReplies cfg m s request) ↔ _
    unfold clientReplies
    cases hrequest : contains request (str "at-request") with
    | true =>
      have hinquiry : inquiryId (.client request) = none := by simp [inquiryId, hrequest]
      have htells := @requestReplies_tells cfg m s request hrequest
      rw [if_pos rfl, htells]
      simp only [grantReplies_tells]
      constructor
      · exact fun h => ⟨h.1, fun payload hpayload => (h.2 payload hpayload).1,
          fun payload hpayload => (h.2 payload hpayload).2, by simp [hinquiry],
          by simp [hinquiry], by simp [noScopeId], by simp [validateId]⟩
      · exact fun h => ⟨h.dated, fun payload hpayload => ⟨h.ask payload hpayload,
          h.token payload hpayload⟩⟩
    | false =>
      have hdecoded : decodedRequest cfg (.client request) = none := by
        simp [decodedRequest, hrequest]
      have haccepted : accepted cfg m s (.client request) = none := by simp [accepted, hrequest]
      rw [if_neg Bool.false_ne_true]
      cases hinquiry : contains request (str "at-inquiry") with
      | true =>
        have htells := @inquiryReplies_tells cfg m s request hrequest hinquiry
        rw [if_pos rfl, htells]
        simp only [slotReplies_tells]
        constructor
        · exact fun h => ⟨by simp [hdecoded], by simp [haccepted], by simp [haccepted],
            fun g i hg hi => (h g i hg hi).1, fun g i hg hi => (h g i hg hi).2,
            by simp [noScopeId], by simp [validateId]⟩
        · exact fun h g i hg hi => ⟨h.consent g i hg hi, h.consented g i hg hi⟩
      | false =>
        have hnone : inquiryId (.client request) = none := by
          simp [inquiryId, hrequest, hinquiry]
        rw [if_neg Bool.false_ne_true, tells_one, fixed_told_iff]
        exact iff_of_true (by decide) ⟨by simp [hdecoded], by simp [haccepted],
          by simp [haccepted], by simp [hnone], by simp [hnone], by simp [noScopeId],
          by simp [validateId]⟩
  | parent request =>
    have hparent := @parentReply_tells cfg m s request
    refine (tells_map.trans hparent).trans ⟨fun h => ?_, fun h => ⟨h.noAccess, h.handle⟩⟩
    exact ⟨by simp [decodedRequest], by simp [accepted], by simp [accepted], by simp [inquiryId],
      by simp [inquiryId], h.1, h.2⟩
  | ecf message =>
    refine iff_of_true ?_ (repliesSound_of_none rfl rfl rfl rfl rfl)
    intro rs hrs r hr
    obtain ⟨r', hstep, rfl⟩ := Option.map_eq_some_iff.mp hrs
    obtain ⟨text, htext, rfl⟩ := List.mem_map.mp hr
    exact fixed_told_iff.mpr (ecfStep_told hstep text htext)
  | expiryTick =>
    exact iff_of_true (tells_some.mpr (List.forall_mem_nil _))
      (repliesSound_of_none rfl rfl rfl rfl rfl)
  | deleteJti jti =>
    exact iff_of_true (tells_some.mpr (List.forall_mem_nil _))
      (repliesSound_of_none rfl rfl rfl rfl rfl)

/-- A session that waits for its consent. -/
def waitingState : State :=
  (State.initial ⟨0, by decide⟩ 0).setPending 0
    { gatingId := 667, consent := str "NOT_SET", atGenData := {}, agtExpiryTime := [] }

theorem replies_not_json :
    ¬ ∀ (cfg : Config) (m : Moment) (s : State) (e : Event), RepliesJson cfg m s e := by
  intro hall
  have hjson := hall (sampleConfig true) sampleMoment waitingState
    (.client (str "\x7b\"action\":\"at-inquiry\",\"sessionId\":\"667\"\x7d"))
  have hrequest : contains (str "\x7b\"action\":\"at-inquiry\",\"sessionId\":\"667\"\x7d")
      (str "at-request") = false := by decide
  have hinquiry : contains (str "\x7b\"action\":\"at-inquiry\",\"sessionId\":\"667\"\x7d")
      (str "at-inquiry") = true := by decide
  have hid : inquiryId (.client (str
      "\x7b\"action\":\"at-inquiry\",\"sessionId\":\"667\"\x7d")) = some 667 := by
    decide
  have hslot : waitingState.pendingSlot 667 = some 0 := by decide +kernel
  have htells := repliesJson_told.mp hjson
  simp only [replies, clientReplies, hrequest, hinquiry, Bool.false_eq_true, if_false,
    if_true] at htells
  exact (slotReplies_tells.mp ((inquiryReplies_tells hrequest hinquiry).mp htells 667 0 hid
    hslot)).1 rfl

end VissServer.AtServer
