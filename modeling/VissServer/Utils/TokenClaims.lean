import VissServer.Go.Slices
import VissServer.Library.Traversals
import VissServer.Utils.Tokens

/-!
From which tokens the claims can be cut. ExtractFromToken finds the value of a claim by the
place of its name in the decoded text, and cuts it without looking at the bytes around it.
Unmarshal of a proof of possession takes the first and the last byte off every raw member of the
header and of the payload, and CheckSignature cuts an ECDSA signature behind its first 32 bytes.
-/
namespace VissServer.Utils

open Go

/-- The text of a claim from its value on, up to the comma behind it or to the last byte. -/
def claimBytes (text : GoString) : GoString :=
  if 44 ∈ text then text.takeWhile fun c => c ≠ 44 else text.dropLast

theorem exists_claimBytes {text : GoString} (h : text ≠ []) :
    ∃ x more, text = claimBytes text ++ x :: more := by
  unfold claimBytes
  split
  · next hcomma =>
    obtain ⟨front, rest, htext, hfront⟩ := List.eq_append_cons_of_mem hcomma
    have hkeep : ∀ d ∈ front, decide (d ≠ 44) = true := by
      intro d hd
      have hne : d ≠ 44 := fun heq => hfront (heq ▸ hd)
      simpa using hne
    refine ⟨44, rest, ?_⟩
    rw [htext, List.takeWhile_append_of_pos hkeep, List.takeWhile_cons_of_neg (by simp),
      List.append_nil]
  · exact ⟨text.getLast h, [], (List.dropLast_append_getLast h).symm⟩

/-- Where the value ends, for a text that starts at s. -/
theorem claimEnd_eq {text : GoString} (h : text ≠ []) (s : ℤ) :
    (if index text (str ",") + s = s - 1 then s + text.length - 1
      else index text (str ",") + s) = s + (claimBytes text).length := by
  have hcomma : str "," = [44] := rfl
  have hlength : 0 < text.length := List.length_pos_of_ne_nil h
  rw [hcomma]
  by_cases hmem : 44 ∈ text
  · have hindex : index text [44] = (text.takeWhile fun c => c ≠ 44).length := by
      rw [index, index?_byte, if_pos hmem]
    rw [claimBytes, if_pos hmem, hindex, if_neg (by omega)]
    omega
  · rw [claimBytes, if_neg hmem, index_byte_of_notMem hmem, if_pos (by omega),
      List.length_dropLast]
    omega

/-- Behind the name of the claim, a quote and a colon there is a value. A quote around the
value is cut off at each end, which leaves its bounds where they meet. -/
def Cuttable (decoded claim : GoString) : Prop :=
  ∃ i b text, index? claim decoded = some i ∧ decoded.drop (i + claim.length + 1) = b :: text ∧
    text ≠ [] ∧ claimBytes text ≠ [34] ∧
    (claimBytes text = [] → b ≠ 34 ∧ text.head? ≠ some 34)

theorem claimValue_append {decoded claim front text : GoString} {i : ℕ} {b : UInt8}
    (hindex : index? claim decoded = some i) (hfront : front.length = i + claim.length + 1)
    (hdecoded : decoded = front ++ b :: text) (htext : text ≠ []) :
    (claimValue decoded claim).isSome ↔ claimBytes text ≠ [34] ∧
      (claimBytes text = [] → b ≠ 34 ∧ text.head? ≠ some 34) := by
  obtain ⟨x, more, heq⟩ := exists_claimBytes htext
  obtain ⟨s, hs⟩ : ∃ s : ℤ, s = front.length + 1 := ⟨_, rfl⟩
  have hend := claimEnd_eq htext s
  have hstart : index decoded claim + claim.length + 2 = s := by
    have hindex' : index decoded claim = i := by rw [index, hindex]
    omega
  have hlength : (decoded.length : ℤ) = s + text.length := by
    rw [hdecoded, List.length_append, List.length_cons]
    omega
  have hafter : sliceFrom decoded s = some text := by
    have hdrop : s.toNat = front.length + 1 := by omega
    rw [sliceFrom, slice, if_pos (by omega), Int.toNat_natCast, List.take_length, hdrop, hdecoded,
      List.drop_append]
    simp
  have hbyte : ∀ j : ℕ, byteAt decoded (s + j - 1) = (b :: text)[j]? := by
    intro j
    have hj : s + j - 1 = front.length + j := by omega
    rw [hj, hdecoded]
    exact byteAt_append front (b :: text) j
  have hfirst : byteAt decoded s = text.head? := by
    have hone := hbyte 1
    have hs' : s + (1 : ℕ) - 1 = s := by omega
    rw [hs'] at hone
    rw [hone, List.getElem?_cons_succ, List.head?_eq_getElem?]
  have hlast := hbyte (claimBytes text).length
  unfold claimValue
  simp only [Option.bind_eq_bind, hstart, hafter, Option.bind_some, hlength, hend, hlast, hfirst]
  generalize claimBytes text = value at heq ⊢
  subst heq
  rw [List.length_append] at hlength
  cases value with
  | nil =>
    have hquotes : ([] : GoString) ≠ [34] ∧ (([] : GoString) = [] → b ≠ 34 ∧
        List.head? ([] ++ x :: more) ≠ some 34) ↔ b ≠ 34 ∧ x ≠ 34 := by simp
    rw [hquotes]
    simp only [List.nil_append, List.length_nil, List.getElem?_cons_zero, List.head?_cons,
      Option.bind_some, slice_isSome_iff, List.length_cons] at hlength ⊢
    by_cases hb : b = 34
    · have hlow : s ≤ if x = 34 then s + 1 else s := by
        split <;> omega
      simp only [hb, if_true, ne_eq, not_true_eq_false, false_and, iff_false]
      omega
    · by_cases hx : x = 34
      · simp only [hx, if_true, ne_eq, not_true_eq_false, and_false, iff_false, if_neg hb]
        omega
      · simp only [hx, hb, if_false, ne_eq, not_false_eq_true, and_self, iff_true]
        omega
  | cons c value =>
    cases value with
    | nil =>
      simp only [List.cons_append, List.nil_append, List.length_cons, List.length_nil,
        List.getElem?_cons_succ, List.getElem?_cons_zero, List.head?_cons, Option.bind_some,
        slice_isSome_iff] at hlength ⊢
      by_cases hc : c = 34
      · simp only [hc, if_true, ne_eq, not_true_eq_false, false_and, iff_false]
        omega
      · simp only [hc, if_false, ne_eq, List.cons.injEq, and_true, not_false_eq_true,
          reduceCtorEq, false_implies, iff_true]
        omega
    | cons d value =>
      -- at least two bytes are left, so the bounds do not meet
      obtain ⟨y, hy⟩ : ∃ y, (b :: (c :: d :: value ++ x :: more))[(c :: d :: value).length]? =
          some y := by
        refine ⟨_, List.getElem?_eq_getElem ?_⟩
        simp only [List.length_append, List.length_cons]
        omega
      rw [hy]
      simp only [List.cons_append, List.length_cons, List.head?_cons, Option.bind_some,
        slice_isSome_iff] at hlength ⊢
      have hlow : (if c = 34 then s + 1 else s) ≤ s + 1 ∧ s ≤ if c = 34 then s + 1 else s := by
        split <;> omega
      have hhigh : s + 1 ≤ (if y = 34 then s + (value.length + 1 + 1 : ℕ) - 1
          else s + (value.length + 1 + 1 : ℕ)) ∧
          (if y = 34 then s + (value.length + 1 + 1 : ℕ) - 1
            else s + (value.length + 1 + 1 : ℕ)) ≤ s + (value.length + 1 + 1 : ℕ) := by
        split <;> omega
      refine ⟨fun _ => by simp, fun _ => ⟨?_, ?_, ?_⟩⟩ <;> omega

theorem claimValue_eq_none {decoded claim : GoString} {i : ℕ}
    (hindex : index? claim decoded = some i) (h : decoded.length ≤ i + claim.length + 2) :
    claimValue decoded claim = none := by
  have hstart : byteAt decoded (index decoded claim + claim.length + 2) = none := by
    have hindex' : index decoded claim = i := by rw [index, hindex]
    rw [byteAt, if_pos (by omega), List.getElem?_eq_none_iff]
    omega
  refine Option.eq_none_iff_forall_ne_some.mpr fun v hv => ?_
  simp only [claimValue, Option.bind_eq_bind, Option.bind_eq_some_iff, hstart] at hv
  obtain ⟨afterStart, -, last, -, first, hfirst, -⟩ := hv
  simp at hfirst

theorem claimValue_isSome_iff {decoded claim : GoString} (h : contains decoded claim = true) :
    (claimValue decoded claim).isSome ↔ Cuttable decoded claim := by
  obtain ⟨i, hindex⟩ := Option.isSome_iff_exists.mp h
  have hcut : Cuttable decoded claim ↔ ∃ b text,
      decoded.drop (i + claim.length + 1) = b :: text ∧ text ≠ [] ∧ claimBytes text ≠ [34] ∧
        (claimBytes text = [] → b ≠ 34 ∧ text.head? ≠ some 34) := by
    constructor
    · rintro ⟨j, b, text, hj, hdrop, hvalue⟩
      obtain rfl := Option.some.inj (hindex.symm.trans hj)
      exact ⟨b, text, hdrop, hvalue⟩
    · rintro ⟨b, text, hdrop, hvalue⟩
      exact ⟨i, b, text, hindex, hdrop, hvalue⟩
  rw [hcut]
  by_cases hlength : decoded.length ≤ i + claim.length + 2
  · rw [claimValue_eq_none hindex hlength]
    refine iff_of_false (by simp) ?_
    rintro ⟨b, text, hdrop, htext, -⟩
    have hlen := congrArg List.length hdrop
    rw [List.length_drop, List.length_cons] at hlen
    have hpos := List.length_pos_of_ne_nil htext
    omega
  · obtain ⟨b, text, hdrop⟩ : ∃ b text, decoded.drop (i + claim.length + 1) = b :: text := by
      refine List.exists_cons_of_ne_nil fun hnil => ?_
      have hlen := List.drop_eq_nil_iff.mp hnil
      omega
    have htext : text ≠ [] := by
      rintro rfl
      have hlen := congrArg List.length hdrop
      rw [List.length_drop, List.length_singleton] at hlen
      omega
    have hfront : (decoded.take (i + claim.length + 1)).length = i + claim.length + 1 := by
      rw [List.length_take]
      omega
    rw [claimValue_append hindex hfront (hdrop ▸ (List.take_append_drop _ decoded).symm) htext]
    constructor
    · intro hvalue
      exact ⟨b, text, hdrop, htext, hvalue⟩
    · rintro ⟨b', text', hdrop', -, hvalue⟩
      rw [hdrop, List.cons.injEq] at hdrop'
      obtain ⟨rfl, rfl⟩ := hdrop'
      exact hvalue

/-- A token has a header and a payload, each with a dot behind it. -/
structure TokenParts (token header payload : GoString) : Prop where
  header_dotless : 46 ∉ header
  payload_dotless : 46 ∉ payload
  token_eq : ∃ signature, token = header ++ 46 :: (payload ++ 46 :: signature)

/-- ExtractFromToken finds the parts of the token, and can cut the claim from the header or,
where the header does not have it, from the payload. -/
def Extractable (token claim : GoString) : Prop :=
  ∃ header payload, TokenParts token header payload ∧
    if contains (Base64.decodeString header).1 claim then
      Cuttable (Base64.decodeString header).1 claim
    else contains (Base64.decodeString payload).1 claim = true →
      Cuttable (Base64.decodeString payload).1 claim

theorem TokenParts.extractFromToken_eq {token header payload : GoString}
    (h : TokenParts token header payload) (claim : GoString) :
    extractFromToken token claim =
      if contains (Base64.decodeString header).1 claim then
        claimValue (Base64.decodeString header).1 claim
      else if contains (Base64.decodeString payload).1 claim then
        claimValue (Base64.decodeString payload).1 claim
      else some [] := by
  obtain ⟨hheader, hpayload, signature, rfl⟩ := h
  have hdot : str "." = [46] := rfl
  have hafter : sliceFrom (header ++ 46 :: (payload ++ 46 :: signature)) (header.length + 1) =
      some (payload ++ 46 :: signature) :=
    slice_append (header ++ [46]) [] (by simp) (by simp) (by simp; omega)
  have hslice : slice (header ++ 46 :: (payload ++ 46 :: signature)) 0 header.length =
      some header :=
    slice_append [] (46 :: (payload ++ 46 :: signature)) (by simp) rfl (by omega)
  have hpay : slice (header ++ 46 :: (payload ++ 46 :: signature)) (header.length + 1)
      (payload.length + header.length + 1) = some payload :=
    slice_append (header ++ [46]) (46 :: signature) (by simp) (by simp) (by omega)
  unfold extractFromToken
  simp only [hdot, index_byte_append hheader, Option.bind_eq_bind, hafter, Option.bind_some,
    index_byte_append hpayload, hslice, hpay, index_ne_iff]

theorem exists_tokenParts {token claim : GoString} (h : (extractFromToken token claim).isSome) :
    ∃ header payload, TokenParts token header payload := by
  obtain ⟨v, hv⟩ := Option.isSome_iff_exists.mp h
  have hdot : str "." = [46] := rfl
  simp only [extractFromToken, hdot, Option.bind_eq_bind, Option.bind_eq_some_iff] at hv
  obtain ⟨afterHeader, hafter, header, hheader, payload, hpayload, -⟩ := hv
  have hfirst : 46 ∈ token := by
    by_contra hmem
    rw [index_byte_of_notMem hmem] at hheader
    have hbounds := slice_isSome_iff.mp (Option.isSome_of_eq_some hheader)
    omega
  obtain ⟨front, rest, rfl, hfront⟩ := List.eq_append_cons_of_mem hfirst
  rw [index_byte_append hfront] at hafter hpayload
  have hrest : afterHeader = rest := by
    have hslice : sliceFrom (front ++ 46 :: rest) (front.length + 1) = some rest :=
      slice_append (front ++ [46]) [] (by simp) (by simp) (by simp; omega)
    exact Option.some.inj (hafter.symm.trans hslice)
  rw [hrest] at hpayload
  have hsecond : 46 ∈ rest := by
    by_contra hmem
    rw [index_byte_of_notMem hmem] at hpayload
    have hbounds := slice_isSome_iff.mp (Option.isSome_of_eq_some hpayload)
    omega
  obtain ⟨middle, signature, rfl, hmiddle⟩ := List.eq_append_cons_of_mem hsecond
  exact ⟨front, middle, hfront, hmiddle, signature, rfl⟩

theorem extractFromToken_isSome_iff {token claim : GoString} :
    (extractFromToken token claim).isSome ↔ Extractable token claim := by
  have hparts : ∀ header payload, TokenParts token header payload →
      ((extractFromToken token claim).isSome ↔
        if contains (Base64.decodeString header).1 claim then
          Cuttable (Base64.decodeString header).1 claim
        else contains (Base64.decodeString payload).1 claim = true →
          Cuttable (Base64.decodeString payload).1 claim) := by
    intro header payload hparts
    rw [hparts.extractFromToken_eq]
    split
    · next hcontains => exact claimValue_isSome_iff hcontains
    · split
      · next hcontains => simp [hcontains, claimValue_isSome_iff hcontains]
      · next hcontains => simp [hcontains]
  constructor
  · intro h
    obtain ⟨header, payload, htoken⟩ := exists_tokenParts h
    exact ⟨header, payload, htoken, (hparts header payload htoken).mp h⟩
  · rintro ⟨header, payload, htoken, hcut⟩
    exact (hparts header payload htoken).mpr hcut

/-! ## Proofs of possession -/

namespace PopToken

/-- Every raw member has a first and a last byte. -/
def Trimmable (raw : GoMap GoString) : Prop := ∀ p ∈ raw, 2 ≤ p.2.length

theorem trimClaims_isSome_iff {raw : GoMap GoString} :
    (trimClaims raw).isSome ↔ Trimmable raw := by
  unfold trimClaims Trimmable
  rw [Traversals.isSome_mapM_iff]
  apply forall₂_congr
  intro p _
  rw [Option.isSome_map, slice_isSome_iff]
  omega

/-- Unmarshal trims the members of the header, and those of the payload where the key can
be decoded. -/
def Sliceable (crypto : Crypto) (popToken : PopToken) (token : GoString) : Prop :=
  ∀ headerMap, unmarshalRaw (popToken.jwt.decodeFromFull token).1.header = some headerMap →
    Trimmable headerMap ∧
      ((popToken.jwk.unmarshall crypto (claim headerMap (str "jwk"))).isSome →
        ∀ payloadMap, unmarshalRaw (popToken.jwt.decodeFromFull token).1.payload =
          some payloadMap → Trimmable payloadMap)

theorem unmarshal_isSome_iff {crypto : Crypto} {popToken : PopToken} {token : GoString} :
    (popToken.unmarshal crypto token).isSome ↔ popToken.Sliceable crypto token := by
  unfold unmarshal Sliceable
  cases hheader : unmarshalRaw (popToken.jwt.decodeFromFull token).1.header with
  | none => simp [hheader]
  | some headerMap =>
    simp only [hheader, Option.some.injEq, forall_eq', ← trimClaims_isSome_iff]
    cases htrim : trimClaims headerMap with
    | none => simp
    | some headerClaims =>
      cases hjwk : popToken.jwk.unmarshall crypto (claim headerMap (str "jwk")) with
      | none => simp
      | some jwk =>
        cases hpayload : unmarshalRaw (popToken.jwt.decodeFromFull token).1.payload with
        | none => simp
        | some payloadMap =>
          cases hpayloadTrim : trimClaims payloadMap with
          | none => simp [hpayloadTrim]
          | some payloadClaims => simp [hpayloadTrim]

/-- The signature that CheckSignature cuts, if it does, has the bytes of r. -/
def SignatureFits (popToken : PopToken) : Prop :=
  claim popToken.headerClaims (str "alg") = str "ES256" → popToken.getPubEcdsa.isSome →
    ∀ signature, Base64.decode popToken.jwt.encodedSignature = some signature →
      32 ≤ signature.length

theorem checkEcdsaSignature_isSome_iff {crypto : Crypto} {token : JsonWebToken}
    {key : EcdsaPublicKey} : (token.checkEcdsaSignature crypto key).isSome ↔
      ∀ signature, Base64.decode token.encodedSignature = some signature →
        32 ≤ signature.length := by
  unfold JsonWebToken.checkEcdsaSignature
  cases hdecode : Base64.decode token.encodedSignature with
  | none => simp
  | some signature =>
    by_cases hlength : 32 ≤ signature.length
    · obtain ⟨r, hr⟩ := Option.isSome_iff_exists.mp
        (slice_isSome_iff.mpr (by omega : 0 ≤ (0 : ℤ) ∧ (0 : ℤ) ≤ 32 ∧ (32 : ℤ) ≤ signature.length))
      obtain ⟨s, hs⟩ := Option.isSome_iff_exists.mp
        (sliceFrom_isSome_iff.mpr (by omega : 0 ≤ (32 : ℤ) ∧ (32 : ℤ) ≤ signature.length))
      simp [hr, hs, hlength]
    · have hr : slice signature 0 32 = none := by
        rw [slice, if_neg (by omega)]
      simp [hr, hlength]

theorem checkSignature_isSome_iff {crypto : Crypto} {popToken : PopToken} :
    (popToken.checkSignature crypto).isSome ↔ popToken.SignatureFits := by
  unfold checkSignature SignatureFits
  have hne : str "RS256" ≠ str "ES256" := by decide
  by_cases hrs : claim popToken.headerClaims (str "alg") = str "RS256"
  · cases popToken.getPubRsa with
    | none => simp [hrs, hne]
    | some key => simp [hrs, hne]
  · by_cases hes : claim popToken.headerClaims (str "alg") = str "ES256"
    · cases hkey : popToken.getPubEcdsa with
      | none => simp [hes, hne.symm]
      | some key => simp [hes, hne.symm, checkEcdsaSignature_isSome_iff]
    · simp [hrs, hes]

end PopToken

end VissServer.Utils
