import VissServer.AtServer.Listing

/-!
The text of the access tokens that the server makes, from which their expiry can be cut.
-/
namespace VissServer.AtServer

open Go Utils

section

/-- A member is put in front of the last brace. -/
theorem exists_marshall (key value front : GoString) :
    ∃ tail, jsonRecursiveMarshall key value (front ++ [125]) = front ++ tail ++ [125] := by
  unfold jsonRecursiveMarshall
  split
  · exact ⟨[], by simp⟩
  · have hne : front ++ [125] ≠ [] := by simp
    have hbrace : str "\x7d" = [125] := rfl
    simp only [if_neg hne, List.dropLast_concat, hbrace]
    generalize (if value.head? = some 123 then value else str "\"" ++ value ++ str "\"") = quoted
    refine ⟨str ",\"" ++ key ++ str "\":" ++ quoted, ?_⟩
    simp only [List.append_assoc]

/-- The claims that are added last go in front of the last brace. -/
theorem exists_addClaims (claims : List (GoString × GoString)) {token : JsonWebToken}
    {front : GoString} (htoken : token.payload = front ++ [125]) :
    ∃ tail, (claims.foldl (fun token p => token.addClaim p.1 p.2) token).payload =
      front ++ tail ++ [125] := by
  induction claims generalizing token front with
  | nil => exact ⟨[], by simpa using htoken⟩
  | cons p claims ih =>
    obtain ⟨mid, hmid⟩ := exists_marshall p.1 p.2 front
    have hadd : (token.addClaim p.1 p.2).payload = front ++ mid ++ [125] := by
      rw [JsonWebToken.addClaim, htoken, hmid]
    obtain ⟨tail, htail⟩ := ih hadd
    refine ⟨mid ++ tail, ?_⟩
    rw [List.foldl_cons, htail, List.append_assoc front mid tail]

theorem exists_itoa (z : ℤ) : ∃ d rest, itoa z = d :: rest ∧ d ≠ 44 ∧ d ≠ 123 := by
  have hdigits : ∀ n : ℕ, ∃ d rest, natDigits n = d :: rest ∧ d ≠ 44 ∧ d ≠ 123 := by
    intro n
    cases hn : natDigits n with
    | nil =>
      simp [natDigits] at hn
    | cons d rest =>
      have hdigit := isDigit_of_mem_natDigits (hn ▸ List.mem_cons_self : d ∈ natDigits n)
      refine ⟨d, rest, rfl, ?_, ?_⟩
      · rintro rfl
        exact absurd hdigit (by decide)
      · rintro rfl
        exact absurd hdigit (by decide)
  unfold itoa
  split
  · exact ⟨45, _, rfl, by decide, by decide⟩
  · exact hdigits _

/-- The text that an access token has in front of the name of its expiry. -/
def beforeExpiry (m : Moment) : GoString := str "\x7b\"iat\":\"" ++ itoa m.unix ++ str "\",\""

/-- The expiry of an access token, with its name. -/
def expiryMember (m : Moment) : GoString :=
  str "exp" ++ (str "\":\"" ++ itoa (m.unix + AT_DURATION) ++ str "\"")

theorem marshall_times (m : Moment) :
    jsonRecursiveMarshall (str "exp") (itoa (m.unix + AT_DURATION))
      (jsonRecursiveMarshall (str "iat") (itoa m.unix) []) =
        beforeExpiry m ++ expiryMember m ++ [125] := by
  have hquoted : ∀ z : ℤ, ¬ itoa z = [] ∧ ¬ (itoa z).head? = some 123 := by
    intro z
    obtain ⟨d, rest, hz, -, hd⟩ := exists_itoa z
    simp [hz, hd]
  have hiat : jsonRecursiveMarshall (str "iat") (itoa m.unix) [] =
      str "\x7b\"iat\":\"" ++ itoa m.unix ++ str "\"" ++ [125] := by
    have hkey : str "iat" ≠ [] := by decide
    simp only [jsonRecursiveMarshall, hquoted, hkey, or_self, if_false, if_true, List.append_assoc]
    rfl
  have hexp : ∀ front, jsonRecursiveMarshall (str "exp") (itoa (m.unix + AT_DURATION))
      (front ++ [125]) = front ++ (str ",\"" ++ (expiryMember m ++ [125])) := by
    intro front
    have hkey : str "exp" ≠ [] := by decide
    have hfront : front ++ [125] ≠ [] := by simp
    simp only [jsonRecursiveMarshall, hquoted, hkey, hfront, or_self, if_false,
      List.dropLast_concat, expiryMember, List.append_assoc]
    rfl
  rw [hiat, hexp, beforeExpiry]
  simp only [List.append_assoc]
  rfl

/-- The payload of an access token starts with its times. -/
theorem exists_accessTokenOf (m : Moment) (payload : AtGenPayload) (jti : GoString) :
    ∃ tail, (accessTokenOf m payload jti).payload = beforeExpiry m ++ expiryMember m ++ tail :=
  have ⟨tail, htail⟩ := exists_addClaims [(str "scp", payload.purpose),
    (str "clx", claim payload.agt.payloadClaims (str "clx")), (str "aud", str "w3org/gen2"),
    (str "jti", jti)] (marshall_times m :
      (((({} : JsonWebToken).setHeader (str "HS256")).addClaim (str "iat") (itoa m.unix)).addClaim
        (str "exp") (itoa (m.unix + AT_DURATION))).payload = _)
  ⟨tail ++ [125], htail.trans (List.append_assoc _ tail [125])⟩

theorem index?_expiry (m : Moment) (tail : GoString) :
    index? (str "exp") (beforeExpiry m ++ expiryMember m ++ tail) =
      some (beforeExpiry m).length := by
  have hfront : 101 ∉ beforeExpiry m := by
    have hdigits : 101 ∉ itoa m.unix := by
      unfold itoa
      split
      · intro hmem
        obtain heq | hmem := List.mem_cons.mp hmem
        · exact absurd heq (by decide)
        · exact absurd (isDigit_of_mem_natDigits hmem) (by decide)
      · intro hmem
        exact absurd (isDigit_of_mem_natDigits hmem) (by decide)
    simp only [beforeExpiry, List.mem_append, not_or]
    exact ⟨⟨by decide, hdigits⟩, by decide⟩
  have htext := index?_append hfront [120, 112]
    (str "\":\"" ++ itoa (m.unix + AT_DURATION) ++ str "\"" ++ tail)
  rw [← htext, expiryMember, List.append_assoc, List.append_assoc]
  rfl

/-- The expiry can be cut from the payload of an access token. -/
theorem cuttable_expiry (m : Moment) (tail : GoString) :
    Cuttable (beforeExpiry m ++ expiryMember m ++ tail) (str "exp") := by
  obtain ⟨d, rest, hexp, hd, -⟩ := exists_itoa (m.unix + AT_DURATION)
  have htext : beforeExpiry m ++ expiryMember m ++ tail =
      beforeExpiry m ++ [101, 120, 112, 34] ++ 58 :: 34 :: d :: (rest ++ 34 :: tail) := by
    rw [expiryMember, hexp]
    simp only [List.append_assoc]
    rfl
  have hbytes : ∃ more, claimBytes (34 :: d :: (rest ++ 34 :: tail)) = 34 :: d :: more := by
    unfold claimBytes
    split
    · refine ⟨(rest ++ 34 :: tail).takeWhile fun c => c ≠ 44, ?_⟩
      simp [hd]
    · refine ⟨(rest ++ 34 :: tail).dropLast, ?_⟩
      simp [List.dropLast_cons_of_ne_nil]
  obtain ⟨more, hmore⟩ := hbytes
  refine ⟨_, 58, 34 :: d :: (rest ++ 34 :: tail), index?_expiry m tail, ?_, by simp, ?_, ?_⟩
  · rw [htext]
    apply List.drop_left'
    rw [List.length_append]
    rfl
  · simp [hmore]
  · simp [hmore]

end

section

variable {cfg : Config} {m : Moment} {payload : AtGenPayload}

/-- The expiry of every access token that generateAt makes can be cut out of it. -/
theorem generateAt_extracts :
    (extractFromToken (generateAt cfg m payload) (str "exp")).isSome ↔ m.uuid ≠ none := by
  refine ⟨uuid_of_extract, fun huuid => ?_⟩
  obtain ⟨jti, hjti⟩ := Option.ne_none_iff_exists'.mp huuid
  obtain ⟨tail, htail⟩ := exists_accessTokenOf m payload jti
  apply extractFromToken_isSome_iff.mpr
  refine ⟨Base64.encode (accessTokenOf m payload jti).header,
    Base64.encode (accessTokenOf m payload jti).payload,
    ⟨Base64.encode_noDot _, Base64.encode_noDot _,
      ((accessTokenOf m payload jti).symmSign cfg.crypto theAtSecret).encodedSignature, ?_⟩, ?_⟩
  · simp only [generateAt, hjti, JsonWebToken.getFullToken, JsonWebToken.symmSign,
      JsonWebToken.encode, List.append_assoc]
    rfl
  · have hheader : contains (accessTokenOf m payload jti).header (str "exp") = false := by
      have htext : (accessTokenOf m payload jti).header =
          str "\x7b\"alg\":\"HS256\",\"typ\":\"JWT\"\x7d" := rfl
      rw [htext]
      decide
    rw [Base64.decodeString_encode, Base64.decodeString_encode, hheader]
    intro _
    rw [htail]
    exact cuttable_expiry m tail

end

end VissServer.AtServer
