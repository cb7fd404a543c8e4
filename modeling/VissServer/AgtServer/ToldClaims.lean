import VissServer.AgtServer.GrantClaims
import VissServer.Utils.KeyBinding

/-!
What is read from a grant token for the claims that the server has put in. The vin is a text
of the client, and the two readers can be told other claims by it.
-/
namespace VissServer.AgtServer

open Go Utils

/-- The payload of the token is decoded as the claims and nothing else, and ExtractFromToken
gives the decoded value of each of them. -/
def ClaimsTold (token : GoString) (claims : List (GoString × GoString)) : Prop :=
  ∃ ext, ({} : ExtendedJwt).decodeFromFull token = some ext ∧
    (∀ key, ext.payloadClaims.get key = (valued claims).lookup key) ∧
    ∀ p ∈ claims, extractFromToken token p.1 = some (claim ext.payloadClaims p.1)

/-- The text of the vin is read as such by both readers, and neither it nor the key has the
name of another claim in it where that is looked for. -/
structure TellableVin (m : Moment) (payload : Payload) (pop : GoString) : Prop where
  literal : IsLiteral payload.vin
  unbraced : payload.vin.head? ≠ some 123
  commaless : 44 ∉ payload.vin
  /-- The text two bytes behind the name is taken for the value of the claim. -/
  names : ∀ p ∈ ownClaims m payload (durationOf pop) ++ keyClaims payload pop,
    ∀ i, index? p.1 payload.vin = some i →
      p.2 ≠ [] ∧ payload.vin.drop (i + p.1.length + 2) = p.2
  /-- A claim without a value is not in the token, where its name is found in the key. -/
  absent : ∀ p ∈ grantClaims m payload pop, p.2 = [] →
    ∀ q ∈ keyClaims payload pop, contains q.2 p.1 = false

section Telling

variable {m : Moment} {payload : Payload} {pop : GoString} {p : GoString × GoString} {i : ℕ}

theorem valued_append (claims claims' : List (GoString × GoString)) :
    valued (claims ++ claims') = valued claims ++ valued claims' := List.filter_append ..

theorem valued_cons (hp : p.2 ≠ []) (claims : List (GoString × GoString)) :
    valued (p :: claims) = p :: valued claims := List.filter_cons_of_pos (by simpa using hp)

theorem index?_nil {c : GoString} (hc : c ∈ claimNames) : index? c [] = none := by
  rw [index?, if_neg (searchName_of_mem hc).1.ne_nil]

/-- The claims behind the vin. -/
abbrev laterClaims (m : Moment) (payload : Payload) (pop : GoString) :
    List (GoString × GoString) :=
  ownClaims m payload (durationOf pop) ++ keyClaims payload pop

theorem laterClaims_simple (h : Granted m payload pop) (hp : p ∈ laterClaims m payload pop) :
    SimpleValue p.2 := by
  rcases List.mem_append.mp hp with hp | hp
  · exact (ownClaims_settled h hp).1
  · exact (keyClaims_settled h hp).1

theorem laterClaims_name (hp : p ∈ laterClaims m payload pop) :
    p.1 ∈ claimNames ∧ p.1 ≠ str "vin" := by
  obtain ⟨hnodup, hnames⟩ := grantClaims_names m payload pop
  refine ⟨hnames p (List.mem_cons_of_mem _ hp), fun heq => ?_⟩
  have hmem : p.1 ∈ (laterClaims m payload pop).map Prod.fst := List.mem_map_of_mem hp
  rw [heq] at hmem
  exact (List.nodup_cons.mp hnodup).1 hmem

theorem grantClaims_unbraced (h : Granted m payload pop) (hvin : payload.vin.head? ≠ some 123) :
    ∀ q ∈ valued (grantClaims m payload pop), q.2.head? ≠ some 123 := by
  intro q hq
  rcases List.mem_cons.mp (List.mem_of_mem_filter hq) with rfl | hq
  · exact hvin
  · exact (laterClaims_simple h hq).unbraced

theorem grantClaims_nonempty : ∀ p ∈ grantClaims m payload pop, p.1 ≠ [] := fun p hp =>
  (searchName_of_mem ((grantClaims_names m payload pop).2 p hp)).1.ne_nil

/-- In front of a claim behind the vin there are only claims of the server itself. -/
theorem exists_before (hp : p ∈ laterClaims m payload pop) :
    ∃ before after, laterClaims m payload pop = before ++ p :: after ∧
      ∀ q ∈ before, q ∈ ownClaims m payload (durationOf pop) ∧ q.1 ≠ p.1 := by
  obtain ⟨before, after, heq, hbefore⟩ : ∃ before after, laterClaims m payload pop =
      before ++ p :: after ∧ ∀ q ∈ before, q ∈ ownClaims m payload (durationOf pop) := by
    unfold laterClaims
    rcases List.mem_append.mp hp with hp | hp
    · obtain ⟨before, after, heq⟩ := List.append_of_mem hp
      rw [heq]
      refine ⟨before, after ++ keyClaims payload pop, by simp, fun q hq => ?_⟩
      exact List.mem_append_left _ hq
    · obtain ⟨hpop, rfl⟩ := mem_keyClaims hp
      refine ⟨ownClaims m payload (durationOf pop), [], ?_, fun q hq => hq⟩
      rw [keyClaims, if_pos hpop]
  refine ⟨before, after, heq, fun q hq => ⟨hbefore q hq, ?_⟩⟩
  have hnodup := (List.nodup_cons.mp (grantClaims_names m payload pop).1).2
  change (List.map Prod.fst (laterClaims m payload pop)).Nodup at hnodup
  rw [heq, List.map_append, List.map_cons] at hnodup
  exact (List.nodup_append.mp hnodup).2.2 q.1 (List.mem_map_of_mem hq) p.1 List.mem_cons_self

/-- The value of the vin is cut at a comma in it. -/
theorem vin_extracted (h : Granted m payload pop) (hvin : payload.vin.head? ≠ some 123)
    (hne : payload.vin ≠ []) :
    payloadValue (claimsText (grantClaims m payload pop)) (str "vin") = some payload.vin ↔
      44 ∉ payload.vin := by
  have hname : SearchName (str "vin") := (searchName_of_mem (by decide)).1
  have hvalued : valued (grantClaims m payload pop) =
      [] ++ (str "vin", payload.vin) :: valued (laterClaims m payload pop) := valued_cons hne _
  exact payloadValue_own hname grantClaims_nonempty hvalued (grantClaims_unbraced h hvin) (by simp)

/-- A later claim whose name is not in the vin. -/
theorem later_extracted (h : Granted m payload pop) (hvin : payload.vin.head? ≠ some 123)
    (hp : p ∈ laterClaims m payload pop) (hne : p.2 ≠ []) (hno : index? p.1 payload.vin = none) :
    payloadValue (claimsText (grantClaims m payload pop)) p.1 = some p.2 := by
  obtain ⟨hname, hnotVin⟩ := laterClaims_name hp
  obtain ⟨hsearch, -, -, hapart⟩ := searchName_of_mem hname
  obtain ⟨before, after, heq, hbefore⟩ := exists_before hp
  have hvalued : valued (grantClaims m payload pop) =
      valued ((str "vin", payload.vin) :: before) ++ p :: valued after := by
    rw [← valued_cons hne, ← valued_append, List.cons_append, ← heq]
    rfl
  refine (payloadValue_own hsearch grantClaims_nonempty hvalued (grantClaims_unbraced h hvin)
    fun q hq => ?_).mpr (laterClaims_simple h hp).commaless
  rcases List.mem_cons.mp (List.mem_of_mem_filter hq) with rfl | hq
  · exact ⟨hapart (str "vin") (by decide) hnotVin, hno⟩
  · obtain ⟨hown, hne'⟩ := hbefore q hq
    exact ⟨hapart q.1 (ownClaims_names hown).1 hne'.symm, (ownClaims_settled h hown).2 p.1 hname⟩

/-- A later claim whose name is in the vin. -/
theorem vin_shadows (h : Granted m payload pop) (hvin : payload.vin.head? ≠ some 123)
    (hliteral : IsLiteral payload.vin) (hcomma : 44 ∉ payload.vin)
    (hp : p ∈ laterClaims m payload pop) (hi : index? p.1 payload.vin = some i) :
    payloadValue (claimsText (grantClaims m payload pop)) p.1 = some p.2 ↔
      p.2 ≠ [] ∧ payload.vin.drop (i + p.1.length + 2) = p.2 := by
  obtain ⟨hname, hnotVin⟩ := laterClaims_name hp
  obtain ⟨hsearch, -, -, hapart⟩ := searchName_of_mem hname
  have hne : payload.vin ≠ [] := by
    intro hnil
    rw [hnil, index?_nil hname] at hi
    simp at hi
  have hvalued : valued (grantClaims m payload pop) =
      [] ++ (str "vin", payload.vin) :: valued (laterClaims m payload pop) := valued_cons hne _
  refine payloadValue_other hsearch grantClaims_nonempty hvalued (grantClaims_unbraced h hvin)
    (by simp) (hapart (str "vin") (by decide) hnotVin) hi (quoteless_of_isLiteral hliteral) ?_
    (quoteless_of_isLiteral (laterClaims_simple h hp).isLiteral)
  refine List.forall_mem_cons.mpr ⟨⟨show 44 ∉ str "vin" by decide, hcomma⟩, fun q hq => ?_⟩
  have hq' := List.mem_of_mem_filter hq
  exact ⟨(searchName_of_mem (laterClaims_name hq').1).2.2.1, (laterClaims_simple h hq').commaless⟩

/-- A claim without a value: its name may only be found in the key. -/
theorem absent_extracted (h : Granted m payload pop) (hvin : payload.vin.head? ≠ some 123)
    (hp : p ∈ grantClaims m payload pop) (hnil : p.2 = [])
    (hno : index? p.1 payload.vin = none) :
    payloadValue (claimsText (grantClaims m payload pop)) p.1 = some [] ↔
      ∀ q ∈ keyClaims payload pop, contains q.2 p.1 = false := by
  obtain ⟨hnodup, hnames⟩ := grantClaims_names m payload pop
  obtain ⟨hsearch, -, -, hapart⟩ := searchName_of_mem (hnames p hp)
  have hother : ∀ q ∈ valued (grantClaims m payload pop), index? p.1 q.1 = none := by
    intro q hq
    obtain ⟨hmem, hvalue⟩ := List.mem_filter.mp hq
    refine hapart q.1 (hnames q hmem) fun heq => ?_
    have hsame := lookup_of_nodup hnodup hp
    rw [heq, lookup_of_nodup hnodup hmem] at hsame
    rw [Option.some.inj hsame, hnil] at hvalue
    simp at hvalue
  have hfree : ∀ q ∈ valued (grantClaims m payload pop), q ∉ keyClaims payload pop →
      FreeOf p.1 q := by
    intro q hq hkey
    refine ⟨hother q hq, ?_⟩
    rcases List.mem_cons.mp (List.mem_of_mem_filter hq) with rfl | hlater
    · exact hno
    · have hown := (List.mem_append.mp hlater).resolve_right hkey
      exact (ownClaims_settled h hown).2 p.1 (hnames p hp)
  constructor
  · intro hvalue q hq
    by_contra hcontains
    rw [Bool.not_eq_false, contains] at hcontains
    obtain ⟨i, hi⟩ := Option.isSome_iff_exists.mp hcontains
    obtain ⟨hsimple, hne⟩ := keyClaims_settled h hq
    obtain ⟨hpop, rfl⟩ := mem_keyClaims hq
    have hvalued : valued (grantClaims m payload pop) =
        valued ((str "vin", payload.vin) :: ownClaims m payload (durationOf pop)) ++
          (str "pub", payload.key) :: [] := by
      rw [grantClaims, ← List.cons_append, valued_append, keyClaims, if_pos hpop,
        valued_cons hne]
      rfl
    refine ((payloadValue_other hsearch grantClaims_nonempty hvalued (grantClaims_unbraced h hvin)
      (fun q hq => ?_) (hother _ (by simp [hvalued])) hi
      (quoteless_of_isLiteral hsimple.isLiteral) ?_ (by simp)).mp hvalue).1 rfl
    · refine hfree q (by rw [hvalued]; exact List.mem_append_left _ hq) fun hkey => ?_
      obtain ⟨-, rfl⟩ := mem_keyClaims hkey
      rcases List.mem_cons.mp (List.mem_of_mem_filter hq) with heq | hown
      · exact absurd (congrArg Prod.fst heq) (show str "pub" ≠ str "vin" by decide)
      · exact (ownClaims_names hown).2.2 rfl
    · exact List.forall_mem_cons.mpr ⟨⟨show 44 ∉ str "pub" by decide, hsimple.commaless⟩, by simp⟩
  · intro hkeys
    apply payloadValue_none hsearch grantClaims_nonempty (grantClaims_unbraced h hvin)
    intro q hq
    by_cases hkey : q ∈ keyClaims payload pop
    · have hcontains := hkeys q hkey
      exact ⟨hother q hq, by simpa [contains] using hcontains⟩
    · exact hfree q hq hkey

end Telling

section Tokens

variable {cfg : Config} {m : Moment} {jtiCache cache : List GoString} {payload : Payload}
  {input pop token : GoString}

/-- The token that is signed for a request. -/
def grantJwt (m : Moment) (payload : Payload) (pop : GoString) : JsonWebToken :=
  if pop ≠ [] then (grantOf m payload LT_DURATION).addClaim (str "pub") payload.key
  else grantOf m payload ST_DURATION

theorem grantJwt_texts (m : Moment) (payload : Payload) (pop : GoString) :
    (grantJwt m payload pop).header = str "\x7b\"alg\":\"RS256\",\"typ\":\"JWT\"\x7d" ∧
      (grantJwt m payload pop).payload = claimsText (grantClaims m payload pop) ∧
      (grantJwt m payload pop).encodedSignature = [] := by
  unfold grantJwt grantClaims keyClaims durationOf
  split
  · exact ⟨rfl, rfl, rfl⟩
  · exact ⟨rfl, rfl, rfl⟩

/-- A response with a token has the parts of the token that was signed. -/
theorem exists_signature (h : tokenResponse cfg (grantJwt m payload pop) = responseWith token) :
    ∃ signature, 46 ∉ signature ∧ token = Base64.encode (grantJwt m payload pop).header ++
      46 :: (Base64.encode (grantJwt m payload pop).payload ++ 46 :: signature) := by
  have hfull : token =
      (((grantJwt m payload pop).encode.assymSign cfg.crypto cfg.sign)).getFullToken := by
    unfold tokenResponse responseWith at h
    exact (List.append_cancel_left (List.append_cancel_right h)).symm
  have hunsigned := (grantJwt_texts m payload pop).2.2
  have hdot : str "." = [46] := rfl
  rw [hfull]
  generalize grantJwt m payload pop = jwt at hunsigned
  unfold JsonWebToken.assymSign
  cases cfg.sign (cfg.crypto.sha256 jwt.encode.encode.signedText) with
  | none =>
    refine ⟨[], by simp, ?_⟩
    simp [JsonWebToken.getFullToken, JsonWebToken.encode, hdot, hunsigned]
  | some signature =>
    refine ⟨Base64.encode signature, Base64.encode_noDot signature, ?_⟩
    simp [JsonWebToken.getFullToken, JsonWebToken.encode, hdot]

theorem checkPop_outcome {popToken : PopToken} {r : Option GoString}
    (h : checkPop cfg m payload popToken = some r) :
    (r = none ∧ popToken.checkThumb payload.key = true) ∨
      ∃ errResponse, r = some errResponse ∧ errResponse ≠ responseWith token := by
  simp only [checkPop, Option.bind_eq_bind, Option.bind_eq_some_iff] at h
  obtain ⟨signed, -, h⟩ := h
  split at h
  · exact .inr ⟨_, (Option.some.inj h).symm, tokenText_ne _ (by decide)⟩
  · obtain ⟨valid, hvalid, h⟩ := Option.bind_eq_some_iff.mp h
    split at h
    · exact .inr ⟨_, (Option.some.inj h).symm, tokenText_ne _ (by decide)⟩
    · next hyes =>
      refine .inl ⟨(Option.some.inj h).symm, ?_⟩
      rw [not_not] at hyes
      by_contra hthumb
      simp only [PopToken.validate, hthumb, not_false_eq_true, if_true] at hvalid
      split at hvalid
      · exact absurd (Option.some.inj hvalid) (by simp [hyes])
      · split at hvalid
        · exact absurd (Option.some.inj hvalid) (by simp [hyes])
        · exact absurd (Option.some.inj hvalid) (by simp [hyes])

/-- The key of a long term grant is the thumbprint of the proof of possession. -/
theorem generateLTAgt_grants
    (h : generateLTAgt cfg m jtiCache payload pop = some (responseWith token, cache)) :
    (∃ bytes, payload.key = Base64.encode bytes ∧ payload.key ≠ []) ∧
      tokenResponse cfg ((grantOf m payload LT_DURATION).addClaim (str "pub") payload.key) =
        responseWith token := by
  simp only [generateLTAgt, Option.bind_eq_bind, Option.bind_eq_some_iff] at h
  obtain ⟨r, hunmarshal, h⟩ := h
  cases r with
  | none => exact absurd (Prod.mk.inj (Option.some.inj h)).1 (tokenText_ne _ (by decide))
  | some popToken =>
    dsimp only at h
    split at h
    · exact absurd (Prod.mk.inj (Option.some.inj h)).1 (tokenText_ne _ (by decide))
    · obtain ⟨r, hcheck, h⟩ := Option.bind_eq_some_iff.mp h
      obtain ⟨rfl, hthumb⟩ | ⟨errResponse, rfl, hne⟩ := checkPop_outcome hcheck
      · refine ⟨⟨cfg.crypto.sha256 popToken.jwk.thumbText, ?_, ?_⟩,
          (Prod.mk.inj (Option.some.inj h)).1⟩
        · rw [← JsonWebKey.genThumbprint_eq, PopToken.genThumbprint_of_checkThumb hunmarshal hthumb]
        · simp only [PopToken.checkThumb, not_or, decide_eq_true_eq] at hthumb
          exact hthumb.1
      · exact absurd (Prod.mk.inj (Option.some.inj h)).1 hne

/-- A response with a token answers a request of an authenticated client. -/
theorem granted_of_response (hid : ∀ id, m.uuid = some id → UuidText id)
    (hinput : Payload.unmarshal input = some payload)
    (h : generateResponse cfg m jtiCache input pop = some (responseWith token, cache)) :
    Granted m payload pop ∧ tokenResponse cfg (grantJwt m payload pop) = responseWith token := by
  simp only [generateResponse, hinput, Option.bind_eq_bind, Option.bind_eq_some_iff] at h
  obtain ⟨authentic, hauthentic, h⟩ := h
  cases authentic with
  | false => exact absurd (Prod.mk.inj (Option.some.inj h)).1 (tokenText_ne _ (by decide))
  | true =>
    have hroles : checkRoles payload.context = some true := by
      obtain ⟨valid, hvalid, hboth⟩ := Option.bind_eq_some_iff.mp hauthentic
      have hand := Option.some.inj hboth
      rw [Bool.and_eq_true] at hand
      rw [hvalid, hand.1]
    rw [if_pos rfl] at h
    by_cases hpop : pop ≠ []
    · rw [if_pos hpop] at h
      obtain ⟨hkey, htoken⟩ := generateLTAgt_grants h
      rw [grantJwt, if_pos hpop]
      exact ⟨⟨hid, hroles, fun _ => hkey⟩, htoken⟩
    · rw [if_neg hpop] at h
      rw [grantJwt, if_neg hpop]
      exact ⟨⟨hid, hroles, fun hne => absurd hne hpop⟩, (Prod.mk.inj (Option.some.inj h)).1⟩

/-- Decoding a token with the header of a grant is decoding its payload. -/
theorem decodeFromFull_iff {header signature : GoString} (text : GoString)
    (hsignature : 46 ∉ signature) (hheader : ((parseText header).bind (decodeStringMap [])).isSome)
    (P : GoMap GoString → Prop) :
    (∃ ext, ({} : ExtendedJwt).decodeFromFull (Base64.encode header ++
        46 :: (Base64.encode text ++ 46 :: signature)) = some ext ∧ P ext.payloadClaims) ↔
      ∃ v claims, parseText text = some v ∧ decodeStringMap [] v = some claims ∧ P claims := by
  obtain ⟨headerClaims, hclaims⟩ := Option.isSome_iff_exists.mp hheader
  obtain ⟨j, hparse, hdecode⟩ := Option.bind_eq_some_iff.mp hclaims
  have hsplit : splitByte 46 (Base64.encode header ++
      46 :: (Base64.encode text ++ 46 :: signature)) =
        [Base64.encode header, Base64.encode text, signature] := by
    rw [splitByte_append (Base64.encode_noDot header), splitByte_append (Base64.encode_noDot text),
      splitByte_of_notMem hsignature]
  simp only [ExtendedJwt.decodeFromFull, JsonWebToken.decodeFromFull, hsplit, Base64.decode_encode,
    if_true, hparse, hdecode, Option.bind_eq_bind, Option.bind_some]
  constructor
  · intro h
    obtain ⟨ext, hext, hP⟩ := h
    obtain ⟨v, hv, hext⟩ := Option.bind_eq_some_iff.mp hext
    obtain ⟨claims, hclaims, hext⟩ := Option.bind_eq_some_iff.mp hext
    obtain rfl := Option.some.inj hext
    exact ⟨v, claims, hv, hclaims, hP⟩
  · intro h
    obtain ⟨v, claims, hv, hclaims, hP⟩ := h
    rw [hv, Option.bind_some, hclaims, Option.bind_some]
    exact ⟨_, rfl, hP⟩

end Tokens

section Grants

variable {m : Moment} {payload : Payload} {pop token signature : GoString}

/-- The names of the claims are not in the header, so that they are looked for in the payload. -/
theorem extractFromToken_grant {c : GoString} (hc : c ∈ claimNames)
    (htoken : token = Base64.encode (grantJwt m payload pop).header ++
      46 :: (Base64.encode (grantJwt m payload pop).payload ++ 46 :: signature)) :
    extractFromToken token c = payloadValue (claimsText (grantClaims m payload pop)) c := by
  have hheader : ∀ c ∈ claimNames,
      contains (str "\x7b\"alg\":\"RS256\",\"typ\":\"JWT\"\x7d") c = false := by decide
  have hparts : TokenParts token (Base64.encode (grantJwt m payload pop).header)
      (Base64.encode (grantJwt m payload pop).payload) :=
    ⟨Base64.encode_noDot _, Base64.encode_noDot _, signature, htoken⟩
  rw [hparts.extractFromToken_eq, Base64.decodeString_encode, Base64.decodeString_encode,
    (grantJwt_texts m payload pop).1, (grantJwt_texts m payload pop).2.1, hheader c hc]
  rfl

/-- What ExtractFromToken gives for a decodable vin. -/
theorem extracted_iff (h : Granted m payload pop) (hliteral : IsLiteral payload.vin)
    (hvin : payload.vin.head? ≠ some 123) :
    (∀ p ∈ grantClaims m payload pop,
      payloadValue (claimsText (grantClaims m payload pop)) p.1 = some p.2) ↔
      TellableVin m payload pop := by
  have hvinClaim : (str "vin", payload.vin) ∈ grantClaims m payload pop := List.mem_cons_self
  have hlater : ∀ p ∈ laterClaims m payload pop, p ∈ grantClaims m payload pop :=
    fun p hp => List.mem_cons_of_mem _ hp
  constructor
  · intro hall
    have hcomma : 44 ∉ payload.vin := by
      by_cases hne : payload.vin = []
      · simp [hne]
      · exact (vin_extracted h hvin hne).mp (hall _ hvinClaim)
    have hnames : ∀ p ∈ laterClaims m payload pop, ∀ i, index? p.1 payload.vin = some i →
        p.2 ≠ [] ∧ payload.vin.drop (i + p.1.length + 2) = p.2 := fun p hp i hi =>
      (vin_shadows h hvin hliteral hcomma hp hi).mp (hall p (hlater p hp))
    refine ⟨hliteral, hvin, hcomma, hnames, fun p hp hnil => ?_⟩
    refine (absent_extracted h hvin hp hnil ?_).mp (hnil ▸ hall p hp)
    rcases List.mem_cons.mp hp with rfl | hp
    · rw [show payload.vin = [] from hnil]
      exact index?_nil (by decide)
    · exact Option.eq_none_iff_forall_ne_some.mpr fun i hi => (hnames p hp i hi).1 hnil
  · intro htold p hp
    by_cases hnil : p.2 = []
    · rw [hnil]
      refine (absent_extracted h hvin hp hnil ?_).mpr (htold.absent p hp hnil)
      rcases List.mem_cons.mp hp with rfl | hp
      · rw [show payload.vin = [] from hnil]
        exact index?_nil (by decide)
      · exact Option.eq_none_iff_forall_ne_some.mpr fun i hi => (htold.names p hp i hi).1 hnil
    · rcases List.mem_cons.mp hp with rfl | hp
      · exact (vin_extracted h hvin hnil).mpr htold.commaless
      · cases hi : index? p.1 payload.vin with
        | none => exact later_extracted h hvin hp hnil hi
        | some i =>
          exact (vin_shadows h hvin hliteral htold.commaless hp hi).mpr (htold.names p hp i hi)

/-- The value of a claim in a map that was decoded from the claims. -/
theorem claim_of_decoded {claims : GoMap GoString} {p : GoString × GoString}
    (hget : ∀ key, claims.get key = (valued (grantClaims m payload pop)).lookup key)
    (hp : p ∈ grantClaims m payload pop) : claim claims p.1 = p.2 := by
  have hnodup := (grantClaims_names m payload pop).1
  rw [claim, hget]
  by_cases hnil : p.2 = []
  · have hnone : (valued (grantClaims m payload pop)).lookup p.1 = none := by
      refine List.lookup_eq_none_iff.mpr fun q hq => bne_iff_ne.mpr fun heq => ?_
      obtain ⟨hmem, hvalue⟩ := List.mem_filter.mp hq
      have hsame := lookup_of_nodup hnodup hp
      rw [heq, lookup_of_nodup hnodup hmem] at hsame
      rw [Option.some.inj hsame, hnil] at hvalue
      simp at hvalue
    rw [hnone, hnil]
    rfl
  · have hmem : p ∈ valued (grantClaims m payload pop) := by
      exact List.mem_filter.mpr ⟨hp, by simpa using hnil⟩
    have hnodup' : ((valued (grantClaims m payload pop)).map Prod.fst).Nodup :=
      hnodup.sublist (List.filter_sublist.map Prod.fst)
    rw [lookup_of_nodup hnodup' hmem]
    rfl

theorem grantClaims_decoded_iff (h : Granted m payload pop) :
    ClaimsDecoded (claimsText (grantClaims m payload pop)) (grantClaims m payload pop) ↔
      IsLiteral payload.vin ∧ payload.vin.head? ≠ some 123 := by
  obtain ⟨hnodup, hnames⟩ := grantClaims_names m payload pop
  have hvalued : valued (grantClaims m payload pop) ≠ [] := by
    have haud : (str "aud", str "w3org/gen2") ∈ valued (grantClaims m payload pop) :=
      List.mem_filter.mpr ⟨by simp [grantClaims, ownClaims], by decide⟩
    exact List.ne_nil_of_mem haud
  rw [claimsDecoded_iff hnodup (fun p hp => ?_) hvalued]
  · constructor
    · intro hall
      by_cases hne : payload.vin = []
      · rw [hne]
        exact ⟨isLiteral_nil, by simp⟩
      · exact hall (str "vin", payload.vin) (by rw [grantClaims, valued_cons hne]; simp)
    · intro hvin p hp
      rcases List.mem_cons.mp (List.mem_of_mem_filter hp) with rfl | hp
      · exact hvin
      · have hsimple := laterClaims_simple h hp
        exact ⟨hsimple.isLiteral, hsimple.unbraced⟩
  · obtain ⟨hsearch, hlit, -⟩ := searchName_of_mem (hnames p hp)
    exact ⟨hsearch.ne_nil, hlit⟩

end Grants

/-- The claims of a grant token are told as the server has chosen them if and only if the vin
of the request can be told. -/
theorem grant_claims_iff (cfg : Config) (m : Moment) (jtiCache cache : List GoString)
    (input pop token : GoString) (payload : Payload)
    (hid : ∀ id, m.uuid = some id → UuidText id)
    (hinput : Payload.unmarshal input = some payload)
    (hgrant : generateResponse cfg m jtiCache input pop = some (responseWith token, cache)) :
    ClaimsTold token (grantClaims m payload pop) ↔ TellableVin m payload pop := by
  obtain ⟨h, hresponse⟩ := granted_of_response hid hinput hgrant
  obtain ⟨signature, hsignature, htoken⟩ := exists_signature hresponse
  have hheader : ((parseText (grantJwt m payload pop).header).bind
      (decodeStringMap [])).isSome := by
    rw [(grantJwt_texts m payload pop).1]
    decide
  have htold := decodeFromFull_iff (grantJwt m payload pop).payload hsignature hheader
    fun claims => (∀ key, claims.get key = (valued (grantClaims m payload pop)).lookup key) ∧
      ∀ p ∈ grantClaims m payload pop, extractFromToken token p.1 = some (claim claims p.1)
  rw [← htoken, (grantJwt_texts m payload pop).2.1] at htold
  rw [ClaimsTold, htold]
  have hextract : ∀ claims : GoMap GoString,
      (∀ key, claims.get key = (valued (grantClaims m payload pop)).lookup key) →
      ((∀ p ∈ grantClaims m payload pop,
        extractFromToken token p.1 = some (claim claims p.1)) ↔
          ∀ p ∈ grantClaims m payload pop,
            payloadValue (claimsText (grantClaims m payload pop)) p.1 = some p.2) := by
    intro claims hget
    refine forall₂_congr fun p hp => ?_
    rw [extractFromToken_grant ((grantClaims_names m payload pop).2 p hp) htoken,
      claim_of_decoded hget hp]
  constructor
  · intro hboth
    obtain ⟨v, claims, hparse, hdecode, hget, hall⟩ := hboth
    obtain ⟨hliteral, hvin⟩ := (grantClaims_decoded_iff h).mp ⟨v, claims, hparse, hdecode, hget⟩
    exact (extracted_iff h hliteral hvin).mp ((hextract claims hget).mp hall)
  · intro htell
    obtain ⟨v, claims, hparse, hdecode, hget⟩ :=
      (grantClaims_decoded_iff h).mpr ⟨htell.literal, htell.unbraced⟩
    refine ⟨v, claims, hparse, hdecode, hget, (hextract claims hget).mpr ?_⟩
    exact (extracted_iff h htell.literal htell.unbraced).mpr htell

/-- A request for a short term grant with that vin. -/
def vinBody (vin : GoString) : GoString :=
  str "\x7b\"vin\":\"" ++ vin ++ str "\",\"context\":\"Owner+OEM+Cloud\",\"proof\":\"ABC\"\x7d"

def vinPayload (vin : GoString) : Payload where
  vin := vin
  context := str "Owner+OEM+Cloud"
  proof := str "ABC"

def vinMoment : Moment where
  now := 1700000000 * second
  uuid := some (str "0e6ba0b2-6a3c-4b63-8d0f-0a1f6a6f2f5e")

/-- The hash of the text that is signed for the vin GEO001, and its signature. -/
def vinConfig : Config where
  crypto :=
    { sha256 := fun _ => (Base64.decodeString (str "Vmb7-jUpCfEB8OP8FuuNsm5K8kQWAnMokqzTDyBUK58")).1
      hmacSha256 := fun _ _ => []
      verifyPkcs1v15 := fun _ _ _ => false
      ecdsaVerify := fun _ _ _ _ => false }
  sign := fun _ => some (Base64.decodeString (str (
    "wAm1il1cwfk9RbELwNeDuihJnoFN1fmLHdVVKKfdfFWaXilBfmRb0NGH39Mn7lNkQov8EZMlnCXDuclavDa05g"))).1

/-- The hash and the signature for a vin that has the name of the expiry in it. -/
def expConfig : Config where
  crypto :=
    { vinConfig.crypto with
      sha256 := fun _ =>
        (Base64.decodeString (str "KivRAH1XuFNLy23if6KC6cSkTfZJ1oohpI07pdIN4FQ")).1 }
  sign := fun _ => some (Base64.decodeString (str (
    "McjUDdnzwQQN24H0LTDqiwRtv7Ldcxq1WLVslm-aQBW7c6j4N7F0L9vejBSE1aZN57y0wbB9YLxsB8cd22SZBg"))).1

def vinToken (cfg : Config) (vin : GoString) : GoString :=
  ((grantJwt vinMoment (vinPayload vin) []).encode.assymSign cfg.crypto cfg.sign).getFullToken

/-- The claims of the grant for a vin of letters and digits. -/
theorem grant_claims_plain :
    ClaimsTold (vinToken vinConfig (str "GEO001"))
      (grantClaims vinMoment (vinPayload (str "GEO001")) []) := by
  have hid : ∀ id, vinMoment.uuid = some id → UuidText id := by
    intro id hsome
    obtain rfl := Option.some.inj hsome
    exact ⟨by decide +kernel, by decide +kernel⟩
  refine (grant_claims_iff vinConfig vinMoment [] [] (vinBody (str "GEO001")) [] _
    (vinPayload (str "GEO001")) hid (by decide +kernel) (by decide +kernel)).mpr ?_
  have hnone : ∀ p ∈ laterClaims vinMoment (vinPayload (str "GEO001")) [],
      index? p.1 (str "GEO001") = none := by decide +kernel
  refine ⟨isLiteral_of_all (by decide), by decide, by decide, ?_, by simp [keyClaims]⟩
  intro p hp i hi
  have hno := hnone p hp
  rw [vinPayload, hno] at hi
  cases hi

/-- A client gives its token another expiry in the eyes of ExtractFromToken. -/
theorem grant_expiry_forged : ¬ ∀ (cfg : Config) (m : Moment) (jtiCache cache : List GoString)
    (input pop token : GoString) (payload : Payload),
    (∀ id, m.uuid = some id → UuidText id) → Payload.unmarshal input = some payload →
      generateResponse cfg m jtiCache input pop = some (responseWith token, cache) →
        ClaimsTold token (grantClaims m payload pop) := by
  intro hall
  have hid : ∀ id, vinMoment.uuid = some id → UuidText id := by
    intro id hsome
    obtain rfl := Option.some.inj hsome
    exact ⟨by decide +kernel, by decide +kernel⟩
  obtain ⟨ext, -, hget, hextract⟩ := hall expConfig vinMoment [] []
    (vinBody (str "exp--4102444800")) [] (vinToken expConfig (str "exp--4102444800"))
    (vinPayload (str "exp--4102444800")) hid (by decide +kernel) (by decide +kernel)
  have hclaim := hextract (str "exp", itoa (vinMoment.unix + ST_DURATION))
    (by simp [grantClaims, ownClaims, durationOf])
  have hlookup : (valued (grantClaims vinMoment (vinPayload (str "exp--4102444800")) [])).lookup
      (str "exp") = some (str "1700014400") := by decide +kernel
  have hforged : extractFromToken (vinToken expConfig (str "exp--4102444800")) (str "exp") =
      some (str "4102444800") := by decide +kernel
  rw [hforged, claim, hget, hlookup] at hclaim
  exact absurd (Option.some.inj hclaim) (by decide)

end VissServer.AgtServer
