import VissServer.Utils.Tokens

/-!
The key that a proof of possession is bound to. CheckSignature takes the public key
from the members of the jwk that the alg member of the header names; the thumbprint
is made of the members that the kty member of the jwk names.
-/
namespace VissServer.Utils

open Go

inductive PublicKey
  | rsa (key : RsaPublicKey)
  | ecdsa (key : EcdsaPublicKey)

/-- CheckAssymSignature, by the type of the key. -/
def JsonWebToken.checkAssymSignature (crypto : Crypto) (token : JsonWebToken) :
    PublicKey → MayPanic Bool
  | .rsa key => some (token.checkRsaSignature crypto key)
  | .ecdsa key => token.checkEcdsaSignature crypto key

def PopToken.alg (popToken : PopToken) : GoString := claim popToken.headerClaims (str "alg")

/-- The key that CheckSignature verifies the signature under. -/
def PopToken.verificationKey (popToken : PopToken) : Option PublicKey :=
  if popToken.alg = str "RS256" then popToken.getPubRsa.map .rsa
  else if popToken.alg = str "ES256" then popToken.getPubEcdsa.map .ecdsa
  else none

theorem PopToken.checkSignature_eq (crypto : Crypto) (popToken : PopToken) :
    popToken.checkSignature crypto =
      match popToken.verificationKey with
      | none => some false
      | some key => popToken.jwt.checkAssymSignature crypto key := by
  unfold PopToken.checkSignature PopToken.verificationKey PopToken.alg
  dsimp only
  split
  · cases popToken.getPubRsa <;> rfl
  · split
    · cases popToken.getPubEcdsa <;> rfl
    · rfl

namespace JsonWebKey

/-- The public key that a JSON web key describes: RFC 7517 has kty name its members. -/
def publicKey (jkey : JsonWebKey) : Option PublicKey :=
  if jkey.type = str "RSA" then ({ jwk := jkey } : PopToken).getPubRsa.map .rsa
  else if jkey.type = str "EC" then ({ jwk := jkey } : PopToken).getPubEcdsa.map .ecdsa
  else none

/-- The text that the thumbprint is the hash of. -/
def thumbText (jkey : JsonWebKey) : GoString :=
  if jkey.type = str "RSA" then
    jsonRecursiveMarshall (str "n") jkey.pubMod
      (jsonRecursiveMarshall (str "kty") jkey.type
        (jsonRecursiveMarshall (str "e") jkey.pubExp []))
  else if jkey.type = str "EC" then
    jsonRecursiveMarshall (str "y") jkey.ycoord
      (jsonRecursiveMarshall (str "x") jkey.xcoord
        (jsonRecursiveMarshall (str "kty") jkey.type
          (jsonRecursiveMarshall (str "crv") jkey.curve [])))
  else []

theorem genThumbprint_eq (crypto : Crypto) (jkey : JsonWebKey) :
    jkey.genThumbprint crypto = Base64.encode (crypto.sha256 jkey.thumbText) := rfl

theorem thumbText_eq_of_genThumbprint {crypto : Crypto}
    (hsha256 : Function.Injective crypto.sha256) {jkey jkey' : JsonWebKey}
    (h : jkey.genThumbprint crypto = jkey'.genThumbprint crypto) :
    jkey.thumbText = jkey'.thumbText := by
  rw [genThumbprint_eq, genThumbprint_eq] at h
  exact hsha256 (Base64.encode_injective h)

end JsonWebKey

/-- The key has a JSON web key with the thumbprint. -/
def HasThumbprint (crypto : Crypto) (key : PublicKey) (thumprint : GoString) : Prop :=
  ∃ jkey : JsonWebKey, jkey.publicKey = some key ∧ jkey.genThumbprint crypto = thumprint

section Text

/-- The member of a text, in front of what follows it. -/
def memberText (key value rest : GoString) : GoString :=
  str "\"" ++ key ++ str "\":\"" ++ value ++ str "\"" ++ rest

/-- A member that is left out where its value is empty. -/
def optionalMember (key value rest : GoString) : GoString :=
  if value = [] then rest else str "," ++ memberText key value rest

/-- A value that base64 decodes. -/
def Plain (value : GoString) : Prop := ∀ c ∈ value, c ≠ 34 ∧ c ≠ 123

variable {key value value' rest rest' front : GoString}

theorem quoted_inj (hvalue : Plain value) (hvalue' : Plain value')
    (h : value ++ str "\"" ++ rest = value' ++ str "\"" ++ rest') :
    value = value' ∧ rest = rest' := by
  induction value generalizing value' with
  | nil =>
    cases value' with
    | nil => exact ⟨rfl, List.append_cancel_left h⟩
    | cons c' value' =>
      have hc : (34 : UInt8) = c' := (List.cons.inj h).1
      exact absurd hc.symm (hvalue' c' (List.mem_cons_self ..)).1
  | cons c value ih =>
    cases value' with
    | nil =>
      have hc : c = 34 := (List.cons.inj h).1
      exact absurd hc (hvalue c (List.mem_cons_self ..)).1
    | cons c' value' =>
      obtain ⟨rfl, htail⟩ := List.cons.inj h
      obtain ⟨rfl, hrest⟩ := ih (fun d hd => hvalue d (List.mem_cons_of_mem _ hd))
        (fun d hd => hvalue' d (List.mem_cons_of_mem _ hd)) htail
      exact ⟨rfl, hrest⟩

theorem memberText_inj (hvalue : Plain value) (hvalue' : Plain value')
    (h : memberText key value rest = memberText key value' rest') :
    value = value' ∧ rest = rest' := by
  unfold memberText at h
  simp only [List.append_assoc] at h
  have h := List.append_cancel_left (List.append_cancel_left (List.append_cancel_left h))
  simp only [← List.append_assoc] at h
  exact quoted_inj hvalue hvalue' h

/-- The first member of a text. -/
theorem jsonRecursiveMarshall_nil (hkey : key ≠ []) (hvalue : Plain value) (hne : value ≠ []) :
    jsonRecursiveMarshall key value [] = str "\x7b" ++ memberText key value (str "\x7d") := by
  have hhead : value.head? ≠ some 123 := by
    intro hhead
    exact (hvalue 123 (List.mem_of_head? hhead)).2 rfl
  simp only [jsonRecursiveMarshall, hkey, hne, hhead, or_self, if_false, if_true, memberText,
    List.append_assoc]
  rfl

theorem jsonRecursiveMarshall_append (hkey : key ≠ []) (hvalue : Plain value) :
    jsonRecursiveMarshall key value (front ++ str "\x7d") =
      front ++ optionalMember key value (str "\x7d") := by
  have hdrop : (front ++ str "\x7d").dropLast = front := List.dropLast_concat
  have htext : front ++ str "\x7d" ≠ [] := List.append_ne_nil_of_right_ne_nil _ (by decide)
  by_cases hne : value = []
  · simp [jsonRecursiveMarshall, optionalMember, hne]
  · have hhead : value.head? ≠ some 123 := by
      intro hhead
      exact (hvalue 123 (List.mem_of_head? hhead)).2 rfl
    simp only [jsonRecursiveMarshall, optionalMember, hkey, hne, hhead, or_self, if_false, htext,
      hdrop, memberText, List.append_assoc]
    rfl

theorem memberText_append (key value rest rest' : GoString) :
    memberText key value (rest ++ rest') = memberText key value rest ++ rest' := by
  simp only [memberText, List.append_assoc]

theorem optionalMember_append (key value rest rest' : GoString) :
    optionalMember key value (rest ++ rest') = optionalMember key value rest ++ rest' := by
  unfold optionalMember
  split
  · rfl
  · rw [memberText_append, List.append_assoc]

theorem optionalMember_inj (hvalue : Plain value) (hvalue' : Plain value')
    (hrest : ¬ (str ",\"" ++ key) <+: rest) (hrest' : ¬ (str ",\"" ++ key) <+: rest')
    (h : optionalMember key value rest = optionalMember key value' rest') :
    value = value' ∧ rest = rest' := by
  have hprefix : ∀ value rest, (str ",\"" ++ key) <+: str "," ++ memberText key value rest := by
    intro value rest
    refine ⟨str "\":\"" ++ value ++ str "\"" ++ rest, ?_⟩
    simp only [memberText, List.append_assoc]
    rfl
  unfold optionalMember at h
  split at h
  · next hnil =>
    split at h
    · next hnil' => exact ⟨hnil.trans hnil'.symm, h⟩
    · exact absurd (h ▸ hprefix value' rest') hrest
  · split at h
    · exact absurd (h ▸ hprefix value rest) hrest'
    · exact memberText_inj hvalue hvalue' (List.append_cancel_left h)

/-- A text that begins with p and ends with the closing brace. -/
def Opens (p text : GoString) : Prop := ∃ rest, text = p ++ rest ++ str "\x7d"

theorem opens_nil (key value : GoString) (hkey : key ≠ []) (hvalue : value ≠ []) :
    Opens (str "\x7b\"" ++ key ++ str "\":") (jsonRecursiveMarshall key value []) := by
  unfold jsonRecursiveMarshall
  rw [if_neg (by simp [hkey, hvalue])]
  exact ⟨_, rfl⟩

/-- Whatever the member, a text keeps its front. -/
theorem Opens.marshall {p text : GoString} (h : Opens p text) (key value : GoString) :
    Opens p (jsonRecursiveMarshall key value text) := by
  obtain ⟨rest, rfl⟩ := h
  unfold jsonRecursiveMarshall
  split
  · exact ⟨rest, rfl⟩
  · have htext : p ++ rest ++ str "\x7d" ≠ [] :=
      List.append_ne_nil_of_right_ne_nil _ (by decide)
    have hdrop : (p ++ rest ++ str "\x7d").dropLast = p ++ rest := List.dropLast_concat
    dsimp only
    rw [if_neg htext, hdrop]
    refine ⟨rest ++ (str ",\"" ++ key ++ str "\":" ++ (if value.head? = some 123 then value
      else str "\"" ++ value ++ str "\"")), ?_⟩
    simp only [List.append_assoc]

theorem Opens.comparable {p q text : GoString} (hp : Opens p text) (hq : Opens q text) :
    p <+: q ∨ q <+: p := by
  obtain ⟨r, rfl⟩ := hp
  obtain ⟨r', h⟩ := hq
  rw [List.append_assoc, List.append_assoc] at h
  exact List.prefix_or_prefix_of_prefix (List.prefix_append p _) (h ▸ List.prefix_append q _)

end Text

namespace JsonWebKey

variable {jkey : JsonWebKey}

theorem opens_rsa (htype : jkey.type = str "RSA") :
    (jkey.pubExp ≠ [] ∧ Opens (str "\x7b\"e\":") jkey.thumbText) ∨
      (jkey.pubExp = [] ∧ Opens (str "\x7b\"kty\":\"RSA\"") jkey.thumbText) := by
  rw [thumbText, if_pos htype, htype]
  by_cases he : jkey.pubExp = []
  · rw [he]
    exact .inr ⟨rfl, Opens.marshall ⟨[], by decide⟩ _ _⟩
  · exact .inl ⟨he, ((opens_nil _ _ (by decide) he).marshall _ _).marshall _ _⟩

theorem opens_ec (htype : jkey.type = str "EC") :
    Opens (str "\x7b\"crv\":") jkey.thumbText ∨
      (jkey.curve = [] ∧ Opens (str "\x7b\"kty\":\"EC\"") jkey.thumbText) := by
  rw [thumbText, if_neg (by rw [htype]; decide), if_pos htype, htype]
  by_cases hcurve : jkey.curve = []
  · rw [hcurve]
    exact .inr ⟨rfl, (Opens.marshall ⟨[], by decide⟩ _ _).marshall _ _⟩
  · exact .inl ((((opens_nil _ _ (by decide) hcurve).marshall _ _).marshall _ _).marshall _ _)

theorem plain_rsa : Plain (str "RSA") := by
  intro c hc
  have h : (str "RSA").all (fun c => c ≠ 34 ∧ c ≠ 123) = true := by decide
  simpa using List.all_eq_true.mp h c hc

/-- The text of an RSA key whose members decode. -/
theorem thumbText_rsa (htype : jkey.type = str "RSA") (he : Plain jkey.pubExp)
    (hn : Plain jkey.pubMod) :
    jkey.thumbText = str "\x7b" ++ (if jkey.pubExp = [] then [] else
      memberText (str "e") jkey.pubExp (str ",")) ++ memberText (str "kty") (str "RSA")
        (optionalMember (str "n") jkey.pubMod (str "\x7d")) := by
  have hkty : ∀ front, jsonRecursiveMarshall (str "n") jkey.pubMod
      (front ++ memberText (str "kty") (str "RSA") (str "\x7d")) =
        front ++ memberText (str "kty") (str "RSA")
          (optionalMember (str "n") jkey.pubMod (str "\x7d")) := by
    intro front
    have h := memberText_append (str "kty") (str "RSA") [] (str "\x7d")
    rw [List.nil_append] at h
    rw [h, ← List.append_assoc, jsonRecursiveMarshall_append (by decide) hn, List.append_assoc,
      ← memberText_append, List.nil_append]
  rw [thumbText, if_pos htype, htype]
  split
  · next hnil =>
    rw [hnil, List.append_nil, ← hkty]
    rfl
  · next hnil =>
    have hfirst : jsonRecursiveMarshall (str "e") jkey.pubExp [] =
        str "\x7b" ++ memberText (str "e") jkey.pubExp [] ++ str "\x7d" := by
      rw [jsonRecursiveMarshall_nil (by decide) he hnil, List.append_assoc, ← memberText_append,
        List.nil_append]
    have hsecond : jsonRecursiveMarshall (str "kty") (str "RSA")
        (jsonRecursiveMarshall (str "e") jkey.pubExp []) =
          (str "\x7b" ++ memberText (str "e") jkey.pubExp (str ",")) ++
            memberText (str "kty") (str "RSA") (str "\x7d") := by
      rw [hfirst, jsonRecursiveMarshall_append (by decide) plain_rsa, optionalMember,
        if_neg (by decide), ← List.append_assoc, List.append_assoc (str "\x7b"),
        ← memberText_append, List.nil_append]
    rw [hsecond, hkty]

/-- The text of an EC key of the curve P-256 whose members decode. -/
theorem thumbText_ec (htype : jkey.type = str "EC") (hcurve : jkey.curve = str "P-256")
    (hx : Plain jkey.xcoord) (hy : Plain jkey.ycoord) :
    jkey.thumbText = str "\x7b\"crv\":\"P-256\",\"kty\":\"EC\"" ++
      optionalMember (str "x") jkey.xcoord (optionalMember (str "y") jkey.ycoord (str "\x7d")) := by
  have hfirst : jsonRecursiveMarshall (str "kty") (str "EC")
      (jsonRecursiveMarshall (str "crv") (str "P-256") []) =
        str "\x7b\"crv\":\"P-256\",\"kty\":\"EC\"" ++ str "\x7d" := by decide
  have hsecond := optionalMember_append (str "x") jkey.xcoord [] (str "\x7d")
  rw [List.nil_append] at hsecond
  rw [thumbText, if_neg (by rw [htype]; decide), if_pos htype, htype, hcurve, hfirst,
    jsonRecursiveMarshall_append (by decide) hx, hsecond, ← List.append_assoc,
    jsonRecursiveMarshall_append (by decide) hy, List.append_assoc, ← optionalMember_append,
    List.nil_append]

theorem plain_of_decode {s bytes : GoString} (h : Base64.decode s = some bytes) : Plain s :=
  fun _ hc => Base64.ne_of_mem_of_decode h hc

/-- A JSON web key of an RSA key. -/
theorem publicKey_eq_rsa {key : RsaPublicKey} (h : jkey.publicKey = some (.rsa key)) :
    jkey.type = str "RSA" ∧ ∃ n e, Base64.decode jkey.pubMod = some n ∧
      Base64.decode jkey.pubExp = some e ∧
      key = { n := bigInt n, e := (BitVec.ofNat 64 (bigInt e)).toInt } := by
  unfold publicKey at h
  split at h
  · next htype =>
    obtain ⟨key', hkey, heq⟩ := Option.map_eq_some_iff.mp h
    obtain rfl := PublicKey.rsa.inj heq
    obtain ⟨n, hn, hkey⟩ := Option.bind_eq_some_iff.mp hkey
    obtain ⟨e, he, hkey⟩ := Option.bind_eq_some_iff.mp hkey
    exact ⟨htype, n, e, hn, he, (Option.some.inj hkey).symm⟩
  · split at h
    · obtain ⟨key', -, heq⟩ := Option.map_eq_some_iff.mp h
      simp at heq
    · simp at h

/-- A JSON web key of an ECDSA key. -/
theorem publicKey_eq_ecdsa {key : EcdsaPublicKey} (h : jkey.publicKey = some (.ecdsa key)) :
    jkey.type = str "EC" ∧ jkey.curve = str "P-256" ∧ ∃ x y,
      Base64.decode jkey.xcoord = some x ∧ Base64.decode jkey.ycoord = some y ∧
      key = { x := bigInt x, y := bigInt y } := by
  unfold publicKey at h
  split at h
  · obtain ⟨key', -, heq⟩ := Option.map_eq_some_iff.mp h
    simp at heq
  · split at h
    · next htype =>
      obtain ⟨key', hkey, heq⟩ := Option.map_eq_some_iff.mp h
      obtain rfl := PublicKey.ecdsa.inj heq
      unfold PopToken.getPubEcdsa at hkey
      split at hkey
      · next hcurve =>
        obtain ⟨x, hx, hkey⟩ := Option.bind_eq_some_iff.mp hkey
        obtain ⟨y, hy, hkey⟩ := Option.bind_eq_some_iff.mp hkey
        exact ⟨htype, hcurve, x, y, hx, hy, (Option.some.inj hkey).symm⟩
      · simp at hkey
    · simp at h

/-- No text is that of an RSA key and that of an EC key. -/
theorem thumbText_ne {jkey' : JsonWebKey} (htype : jkey.type = str "RSA")
    (htype' : jkey'.type = str "EC") : jkey.thumbText ≠ jkey'.thumbText := by
  intro h
  have hec := opens_ec htype'
  rw [← h] at hec
  rcases opens_rsa htype with ⟨-, hp⟩ | ⟨-, hp⟩ <;> rcases hec with hq | ⟨-, hq⟩ <;>
    exact absurd (hp.comparable hq) (by decide)

theorem thumbText_rsa_inj {jkey' : JsonWebKey} (htype : jkey.type = str "RSA")
    (htype' : jkey'.type = str "RSA") (he : Plain jkey.pubExp) (hn : Plain jkey.pubMod)
    (he' : Plain jkey'.pubExp) (hn' : Plain jkey'.pubMod) (h : jkey.thumbText = jkey'.thumbText) :
    jkey.pubExp = jkey'.pubExp ∧ jkey.pubMod = jkey'.pubMod := by
  have hopens' := opens_rsa htype'
  rw [← h] at hopens'
  rw [thumbText_rsa htype he hn, thumbText_rsa htype' he' hn', List.append_assoc,
    List.append_assoc] at h
  have hrest : ∀ {n n' : GoString}, Plain n → Plain n' →
      memberText (str "kty") (str "RSA") (optionalMember (str "n") n (str "\x7d")) =
        memberText (str "kty") (str "RSA") (optionalMember (str "n") n' (str "\x7d")) →
      n = n' := by
    intro n n' hn hn' h
    have h := (memberText_inj plain_rsa plain_rsa h).2
    exact (optionalMember_inj hn hn' (by decide) (by decide) h).1
  have h := List.append_cancel_left h
  rcases opens_rsa htype with ⟨hne, hp⟩ | ⟨hnil, hp⟩ <;>
    rcases hopens' with ⟨hne', hq⟩ | ⟨hnil', hq⟩
  · rw [if_neg hne, if_neg hne', ← memberText_append, ← memberText_append] at h
    obtain ⟨heq, htail⟩ := memberText_inj he he' h
    exact ⟨heq, hrest hn hn' (List.append_cancel_left htail)⟩
  · exact absurd (hp.comparable hq) (by decide)
  · exact absurd (hp.comparable hq) (by decide)
  · rw [if_pos hnil, if_pos hnil'] at h
    exact ⟨hnil.trans hnil'.symm, hrest hn hn' h⟩

theorem thumbText_ec_inj {jkey' : JsonWebKey} (htype : jkey.type = str "EC")
    (htype' : jkey'.type = str "EC") (hcurve : jkey.curve = str "P-256")
    (hcurve' : jkey'.curve = str "P-256") (hx : Plain jkey.xcoord) (hy : Plain jkey.ycoord)
    (hx' : Plain jkey'.xcoord) (hy' : Plain jkey'.ycoord) (h : jkey.thumbText = jkey'.thumbText) :
    jkey.xcoord = jkey'.xcoord ∧ jkey.ycoord = jkey'.ycoord := by
  rw [thumbText_ec htype hcurve hx hy, thumbText_ec htype' hcurve' hx' hy'] at h
  have hnot : ∀ y, ¬ (str ",\"" ++ str "x") <+: optionalMember (str "y") y (str "\x7d") := by
    intro y hprefix
    unfold optionalMember at hprefix
    split at hprefix
    · exact absurd hprefix (by decide)
    · rw [memberText] at hprefix
      simp only [← List.append_assoc] at hprefix
      have hfront : (str "," ++ str "\"" ++ str "y") <+: str "," ++ str "\"" ++ str "y" ++
          str "\":\"" ++ y ++ str "\"" ++ str "\x7d" := by
        simp only [List.append_assoc]
        exact List.prefix_append _ _
      exact absurd (List.prefix_or_prefix_of_prefix hprefix hfront) (by decide)
  obtain ⟨hxeq, hrest⟩ := optionalMember_inj hx hx' (hnot _) (hnot _) (List.append_cancel_left h)
  exact ⟨hxeq, (optionalMember_inj hy hy' (by decide) (by decide) hrest).1⟩

end JsonWebKey

section Binding

variable {crypto : Crypto} {key key' : PublicKey} {thumprint : GoString}

/-- A thumbprint belongs to one key at most. -/
theorem HasThumbprint.unique (hsha256 : Function.Injective crypto.sha256)
    (h : HasThumbprint crypto key thumprint) (h' : HasThumbprint crypto key' thumprint) :
    key = key' := by
  obtain ⟨jkey, hkey, hthumb⟩ := h
  obtain ⟨jkey', hkey', hthumb'⟩ := h'
  have htext := JsonWebKey.thumbText_eq_of_genThumbprint hsha256 (hthumb.trans hthumb'.symm)
  cases key with
  | rsa key =>
    obtain ⟨htype, n, e, hn, he, rfl⟩ := JsonWebKey.publicKey_eq_rsa hkey
    cases key' with
    | rsa key' =>
      obtain ⟨htype', n', e', hn', he', rfl⟩ := JsonWebKey.publicKey_eq_rsa hkey'
      obtain ⟨heqe, heqn⟩ := JsonWebKey.thumbText_rsa_inj htype htype'
        (JsonWebKey.plain_of_decode he) (JsonWebKey.plain_of_decode hn)
        (JsonWebKey.plain_of_decode he') (JsonWebKey.plain_of_decode hn') htext
      rw [heqn, hn'] at hn
      rw [heqe, he'] at he
      obtain rfl := Option.some.inj hn
      obtain rfl := Option.some.inj he
      rfl
    | ecdsa key' =>
      obtain ⟨htype', -⟩ := JsonWebKey.publicKey_eq_ecdsa hkey'
      exact absurd htext (JsonWebKey.thumbText_ne htype htype')
  | ecdsa key =>
    obtain ⟨htype, hcurve, x, y, hx, hy, rfl⟩ := JsonWebKey.publicKey_eq_ecdsa hkey
    cases key' with
    | rsa key' =>
      obtain ⟨htype', -⟩ := JsonWebKey.publicKey_eq_rsa hkey'
      exact absurd htext.symm (JsonWebKey.thumbText_ne htype' htype)
    | ecdsa key' =>
      obtain ⟨htype', hcurve', x', y', hx', hy', rfl⟩ := JsonWebKey.publicKey_eq_ecdsa hkey'
      obtain ⟨heqx, heqy⟩ := JsonWebKey.thumbText_ec_inj htype htype' hcurve hcurve'
        (JsonWebKey.plain_of_decode hx) (JsonWebKey.plain_of_decode hy)
        (JsonWebKey.plain_of_decode hx') (JsonWebKey.plain_of_decode hy') htext
      rw [heqx, hx'] at hx
      rw [heqy, hy'] at hy
      obtain rfl := Option.some.inj hx
      obtain rfl := Option.some.inj hy
      rfl

/-- The kty member names the type of key that the alg member stands for. -/
def PopToken.TypeFits (popToken : PopToken) : Prop :=
  (popToken.alg = str "RS256" ∧ popToken.jwk.type = str "RSA") ∨
    (popToken.alg = str "ES256" ∧ popToken.jwk.type = str "EC")

theorem PopToken.verificationKey_of_typeFits {popToken : PopToken} (h : popToken.TypeFits) :
    popToken.verificationKey = popToken.jwk.publicKey := by
  rcases h with ⟨halg, htype⟩ | ⟨halg, htype⟩
  · rw [verificationKey, if_pos halg, JsonWebKey.publicKey, if_pos htype]
    rfl
  · rw [verificationKey, if_neg (by rw [halg]; decide), if_pos halg, JsonWebKey.publicKey,
      if_neg (by rw [htype]; decide), if_pos htype]
    rfl

theorem PopToken.alg_of_verificationKey {popToken : PopToken}
    (h : popToken.verificationKey = some key) :
    (popToken.alg = str "RS256" ∧ ∃ k, key = .rsa k) ∨
      (popToken.alg = str "ES256" ∧ ∃ k, key = .ecdsa k) := by
  unfold verificationKey at h
  split at h
  · next halg =>
    obtain ⟨k, -, rfl⟩ := Option.map_eq_some_iff.mp h
    exact .inl ⟨halg, k, rfl⟩
  · split at h
    · next halg =>
      obtain ⟨k, -, rfl⟩ := Option.map_eq_some_iff.mp h
      exact .inr ⟨halg, k, rfl⟩
    · simp at h

/-- The text of a key that has a thumbprint names the type of the key. -/
theorem JsonWebKey.type_of_thumbText {jkey jkey' : JsonWebKey} (hkey : jkey.publicKey = some key)
    (htext : jkey.thumbText = jkey'.thumbText) : jkey'.type = jkey.type := by
  have hnil : ∀ {p}, Opens p jkey'.thumbText →
      jkey'.type = str "RSA" ∨ jkey'.type = str "EC" := by
    intro p hopens
    by_contra hno
    rw [not_or] at hno
    obtain ⟨rest, hrest⟩ := hopens
    rw [thumbText, if_neg hno.1, if_neg hno.2] at hrest
    exact absurd hrest.symm (List.append_ne_nil_of_right_ne_nil _ (by decide))
  cases key with
  | rsa k =>
    obtain ⟨htype, -⟩ := publicKey_eq_rsa hkey
    have hopens : jkey'.type = str "RSA" ∨ jkey'.type = str "EC" := by
      rcases opens_rsa htype with ⟨-, hp⟩ | ⟨-, hp⟩ <;> exact hnil (htext ▸ hp)
    rcases hopens with htype' | htype'
    · rw [htype, htype']
    · exact absurd htext (thumbText_ne htype htype')
  | ecdsa k =>
    obtain ⟨htype, -⟩ := publicKey_eq_ecdsa hkey
    have hopens : jkey'.type = str "RSA" ∨ jkey'.type = str "EC" := by
      rcases opens_ec htype with hp | ⟨-, hp⟩ <;> exact hnil (htext ▸ hp)
    rcases hopens with htype' | htype'
    · exact absurd htext.symm (thumbText_ne htype' htype)
    · rw [htype, htype']

theorem PopToken.thumb_of_unmarshal {before popToken : PopToken} {token : GoString}
    (h : before.unmarshal crypto token = some (some popToken)) :
    popToken.jwk.thumb = popToken.jwk.genThumbprint crypto := by
  unfold unmarshal at h
  dsimp only at h
  split at h
  · simp at h
  · obtain ⟨headerClaims, -, h⟩ := Option.bind_eq_some_iff.mp h
    split at h
    · simp at h
    · next jwk hjwk =>
      have hthumb : jwk.thumb = jwk.genThumbprint crypto := by
        obtain ⟨v, -, hjwk⟩ := Option.bind_eq_some_iff.mp hjwk
        obtain ⟨jkey, -, hjwk⟩ := Option.bind_eq_some_iff.mp hjwk
        obtain rfl := Option.some.inj hjwk
        rfl
      split at h
      · simp at h
      · obtain ⟨payloadClaims, -, h⟩ := Option.bind_eq_some_iff.mp h
        obtain rfl := Option.some.inj (Option.some.inj h)
        exact hthumb

theorem PopToken.genThumbprint_of_checkThumb {before popToken : PopToken} {token : GoString}
    (htoken : before.unmarshal crypto token = some (some popToken))
    (hthumb : popToken.checkThumb thumprint = true) :
    popToken.jwk.genThumbprint crypto = thumprint := by
  rw [← thumb_of_unmarshal htoken]
  simp only [checkThumb, not_or, not_not, decide_eq_true_eq] at hthumb
  exact hthumb.2.symm

/-- The key that the signature of a proof of possession is verified under is the key
of the thumbprint. -/
def PopToken.BoundTo (crypto : Crypto) (popToken : PopToken) (thumprint : GoString) : Prop :=
  ∃ key, popToken.verificationKey = some key ∧
    popToken.jwt.checkAssymSignature crypto key = some true ∧
    HasThumbprint crypto key thumprint ∧
    ∀ key', HasThumbprint crypto key' thumprint → key' = key

/-- A proof of possession that passes both checks is bound to the thumbprint exactly
where kty names the key type of alg. -/
theorem pop_key_bound_iff (crypto : Crypto) (hsha256 : Function.Injective crypto.sha256)
    (before popToken : PopToken) (token thumprint : GoString)
    (htoken : before.unmarshal crypto token = some (some popToken))
    (hsignature : popToken.checkSignature crypto = some true)
    (hthumb : popToken.checkThumb thumprint = true) :
    popToken.BoundTo crypto thumprint ↔ popToken.TypeFits := by
  have hthumprint := PopToken.genThumbprint_of_checkThumb htoken hthumb
  constructor
  · rintro ⟨key, hkey, -, ⟨jkey, hjkey, hjthumb⟩, -⟩
    have htext := JsonWebKey.thumbText_eq_of_genThumbprint hsha256 (hjthumb.trans hthumprint.symm)
    have htype := JsonWebKey.type_of_thumbText hjkey htext
    rcases PopToken.alg_of_verificationKey hkey with ⟨halg, k, rfl⟩ | ⟨halg, k, rfl⟩
    · exact .inl ⟨halg, htype.trans (JsonWebKey.publicKey_eq_rsa hjkey).1⟩
    · exact .inr ⟨halg, htype.trans (JsonWebKey.publicKey_eq_ecdsa hjkey).1⟩
  · intro hfits
    rw [PopToken.checkSignature_eq] at hsignature
    cases hkey : popToken.verificationKey with
    | none => simp [hkey] at hsignature
    | some key =>
      simp only [hkey] at hsignature
      rw [PopToken.verificationKey_of_typeFits hfits] at hkey
      have hhas : HasThumbprint crypto key thumprint := ⟨popToken.jwk, hkey, hthumprint⟩
      refine ⟨key, ?_, hsignature, hhas, fun key' h => h.unique hsha256 hhas⟩
      rw [PopToken.verificationKey_of_typeFits hfits, hkey]

end Binding

/-- Primitives that accept one RSA signature, under every key. -/
def sampleCrypto : Crypto where
  sha256 := id
  hmacSha256 := fun key message => key ++ message
  verifyPkcs1v15 := fun _ _ signature => signature = str "signature"
  ecdsaVerify := fun _ _ _ _ => false

/-- A proof of possession with a header that names RS256. -/
def sampleProof (jwk : GoString) : GoString :=
  Base64.encode (str "\x7b\"typ\":\"dpop+jwt\",\"alg\":\"RS256\",\"jwk\":" ++ jwk ++
    str "\x7d") ++ str "." ++
  Base64.encode (str "\x7b\"aud\":\"vissv2/agts\",\"jti\":\"1\"\x7d") ++ str "." ++
  Base64.encode (str "signature")

/-- An RSA key. -/
def rsaJwk : GoString := str "\x7b\"kty\":\"RSA\",\"n\":\"wQ\",\"e\":\"AQAB\"\x7d"

/-- An EC key, with the members of that RSA key beside its own. -/
def mixedJwk : GoString := str ("\x7b\"kty\":\"EC\",\"crv\":\"P-256\",\"x\":\"axfR8uEs\"," ++
  "\"y\":\"T-NC4v4a\",\"n\":\"wQ\",\"e\":\"AQAB\"\x7d")

/-- What CheckSignature and CheckThumb make of the sample with a JSON web key. -/
theorem exists_sampleProof (jwk thumprint type : GoString)
    (h : ((PopToken.unmarshal sampleCrypto {} (sampleProof jwk)).any fun r => r.any fun popToken =>
      popToken.checkSignature sampleCrypto = some true && popToken.checkThumb thumprint &&
        popToken.alg = str "RS256" && popToken.jwk.type = type) = true) :
    ∃ popToken : PopToken,
      PopToken.unmarshal sampleCrypto {} (sampleProof jwk) = some (some popToken) ∧
      popToken.checkSignature sampleCrypto = some true ∧ popToken.checkThumb thumprint = true ∧
      popToken.alg = str "RS256" ∧ popToken.jwk.type = type := by
  obtain ⟨r, hr, hpop⟩ := (Option.any_eq_true ..).mp h
  obtain ⟨popToken, rfl, hchecks⟩ := (Option.any_eq_true ..).mp hpop
  simp only [Bool.and_eq_true, decide_eq_true_eq] at hchecks
  exact ⟨popToken, hr, hchecks.1.1.1, hchecks.1.1.2, hchecks.1.2, hchecks.2⟩

theorem pop_key_bound_sample : ∃ popToken,
    PopToken.unmarshal sampleCrypto {} (sampleProof rsaJwk) = some (some popToken) ∧
    popToken.BoundTo sampleCrypto (Base64.encode
      (str "\x7b\"e\":\"AQAB\",\"kty\":\"RSA\",\"n\":\"wQ\"\x7d")) := by
  obtain ⟨popToken, htoken, hsignature, hthumb, halg, htype⟩ := exists_sampleProof rsaJwk
    (Base64.encode (str "\x7b\"e\":\"AQAB\",\"kty\":\"RSA\",\"n\":\"wQ\"\x7d")) (str "RSA")
    (by decide +kernel)
  exact ⟨popToken, htoken, (pop_key_bound_iff sampleCrypto Function.injective_id {} popToken
    (sampleProof rsaJwk) _ htoken hsignature hthumb).mpr (.inl ⟨halg, htype⟩)⟩

/-- Signed under the RSA key, accepted for the thumbprint of the EC key. -/
theorem pop_key_unbound : ¬ ∀ crypto : Crypto, Function.Injective crypto.sha256 →
    ∀ (before popToken : PopToken) (token thumprint : GoString),
      before.unmarshal crypto token = some (some popToken) →
      popToken.checkSignature crypto = some true → popToken.checkThumb thumprint = true →
      popToken.BoundTo crypto thumprint := by
  intro hall
  obtain ⟨popToken, htoken, hsignature, hthumb, halg, htype⟩ := exists_sampleProof mixedJwk
    (Base64.encode (str ("\x7b\"crv\":\"P-256\",\"kty\":\"EC\",\"x\":\"axfR8uEs\"," ++
      "\"y\":\"T-NC4v4a\"\x7d"))) (str "EC") (by decide +kernel)
  have hthumprint := PopToken.genThumbprint_of_checkThumb htoken hthumb
  obtain ⟨key, hkey, -, ⟨jkey, hjkey, hjthumb⟩, -⟩ := hall sampleCrypto Function.injective_id {}
    popToken (sampleProof mixedJwk) _ htoken hsignature hthumb
  have htype' := JsonWebKey.type_of_thumbText hjkey (JsonWebKey.thumbText_eq_of_genThumbprint
    Function.injective_id (hjthumb.trans hthumprint.symm))
  rw [htype] at htype'
  rcases PopToken.alg_of_verificationKey hkey with ⟨-, k, rfl⟩ | ⟨halg', -⟩
  · rw [(JsonWebKey.publicKey_eq_rsa hjkey).1] at htype'
    exact absurd htype' (by decide)
  · rw [halg] at halg'
    exact absurd halg' (by decide)

end VissServer.Utils
