import Mathlib.Data.Nat.Digits.Lemmas
import VissServer.Go.Slices
import VissServer.Utils.KeyBinding

/-!
The bytes of an ECDSA signature (utils/datatypes.go). AssymSign puts the bytes of r and s
together without leading zero bytes, and CheckAssymSignature takes the first 32 bytes for r.
ecdsa.Sign and ecdsa.Verify are parameters.
-/
namespace VissServer.Utils

open Go

/-- big.Int.Bytes: the big-endian bytes without leading zeros. -/
def bigIntBytes (n : ℕ) : GoString := (Nat.digits 256 n).reverse.map UInt8.ofNat

/-- What AssymSign makes of the numbers that ecdsa.Sign returns. -/
def ecdsaSignature (rSign sSign : ℕ) : GoString := bigIntBytes rSign ++ bigIntBytes sSign

/-- AssymSign with an ECDSA key; none is an error of ecdsa.Sign. -/
def JsonWebToken.ecdsaSign (crypto : Crypto) (token : JsonWebToken)
    (sign : GoString → Option (ℕ × ℕ)) : JsonWebToken :=
  token.assymSign crypto fun hashed => (sign hashed).map fun n => ecdsaSignature n.1 n.2

/-- The numbers that CheckAssymSignature takes out of a signature. -/
def splitSignature (signature : GoString) : MayPanic (ℕ × ℕ) := do
  let r ← slice signature 0 32
  let s ← sliceFrom signature 32
  some (bigInt r, bigInt s)

/-! ## Big-endian bytes -/

theorem bigInt_concat (bytes : GoString) (b : UInt8) :
    bigInt (bytes ++ [b]) = 256 * bigInt bytes + b.toNat := by
  rw [bigInt, List.foldl_append]
  rfl

theorem bigInt_append (front back : GoString) :
    bigInt (front ++ back) = bigInt front * 256 ^ back.length + bigInt back := by
  induction back using List.reverseRecOn with
  | nil => simp [bigInt]
  | append_singleton back b ih =>
    rw [← List.append_assoc, bigInt_concat, ih, bigInt_concat, List.length_append,
      List.length_singleton, Nat.pow_succ]
    ring

theorem bigInt_digits {digits : List ℕ} (h : ∀ d ∈ digits, d < 256) :
    bigInt (digits.reverse.map UInt8.ofNat) = Nat.ofDigits 256 digits := by
  induction digits with
  | nil => rfl
  | cons d digits ih =>
    obtain ⟨hd, hdigits⟩ := List.forall_mem_cons.mp h
    rw [List.reverse_cons, List.map_append, List.map_singleton, bigInt_concat, ih hdigits,
      Nat.ofDigits_cons, UInt8.toNat_ofNat', Nat.mod_eq_of_lt hd]
    ring

theorem bigInt_bigIntBytes (n : ℕ) : bigInt (bigIntBytes n) = n := by
  rw [bigIntBytes, bigInt_digits fun d => Nat.digits_lt_base (by decide), Nat.ofDigits_digits]

theorem length_bigIntBytes (n : ℕ) : (bigIntBytes n).length = (Nat.digits 256 n).length := by
  rw [bigIntBytes, List.length_map, List.length_reverse]

theorem pow_256_32 : (256 : ℕ) ^ 32 = 2 ^ 256 := by norm_num

theorem pow_256_31 : (256 : ℕ) ^ 31 = 2 ^ 248 := by norm_num

theorem length_bigIntBytes_le {n : ℕ} (h : n < 2 ^ 256) : (bigIntBytes n).length ≤ 32 := by
  rw [length_bigIntBytes, Nat.digits_length_le_iff (by decide), pow_256_32]
  exact h

theorem lt_length_bigIntBytes_iff {n : ℕ} : 31 < (bigIntBytes n).length ↔ 2 ^ 248 ≤ n := by
  rw [length_bigIntBytes, Nat.lt_digits_length_iff (by decide), pow_256_31]

/-! ## Splitting a signature -/

section Split

variable {r s : ℕ}

theorem splitSignature_append {front : GoString} (hfront : front.length = 32) (back : GoString) :
    splitSignature (front ++ back) = some (bigInt front, bigInt back) := by
  have hr : slice (front ++ back) 0 32 = some front :=
    slice_append [] back (by simp) rfl (by rw [hfront]; rfl)
  have hs : sliceFrom (front ++ back) 32 = some back :=
    slice_append front [] (by simp) (by rw [hfront]; rfl) (by
      rw [List.length_append, hfront]
      omega)
  simp only [splitSignature, hr, hs, Option.bind_eq_bind, Option.bind_some]

theorem splitSignature_long (hr : r < 2 ^ 256) (hlong : 2 ^ 248 ≤ r) :
    splitSignature (ecdsaSignature r s) = some (r, s) := by
  have hle := length_bigIntBytes_le hr
  have hlt := lt_length_bigIntBytes_iff.mpr hlong
  rw [ecdsaSignature, splitSignature_append (by omega), bigInt_bigIntBytes, bigInt_bigIntBytes]

/-- A number r of fewer than 32 bytes takes bytes of s. -/
theorem splitSignature_short (hpos : 0 < r) (hshort : r < 2 ^ 248) :
    splitSignature (ecdsaSignature r s) ≠ some (r, s) := by
  intro h
  have hlength : (bigIntBytes r).length < 32 := by
    have hlt := mt lt_length_bigIntBytes_iff.mp (by omega : ¬ 2 ^ 248 ≤ r)
    omega
  obtain ⟨front, hfront, h⟩ := Option.bind_eq_some_iff.mp h
  obtain ⟨back, -, h⟩ := Option.bind_eq_some_iff.mp h
  have hr : bigInt front = r := (Prod.mk.inj (Option.some.inj h)).1
  have hbounds := slice_isSome_iff.mp (Option.isSome_of_eq_some hfront)
  rw [slice, if_pos hbounds] at hfront
  obtain rfl := Option.some.inj hfront
  have htake : (ecdsaSignature r s).take 32 =
      bigIntBytes r ++ (bigIntBytes s).take (32 - (bigIntBytes r).length) := by
    rw [ecdsaSignature, List.take_append, List.take_of_length_le hlength.le]
  have htaken : 0 < ((bigIntBytes s).take (32 - (bigIntBytes r).length)).length := by
    have hall := hbounds.2.2
    rw [ecdsaSignature, List.length_append] at hall
    rw [List.length_take]
    omega
  change bigInt ((ecdsaSignature r s).take 32) = r at hr
  rw [htake, bigInt_append, bigInt_bigIntBytes] at hr
  have hpow := Nat.one_lt_pow htaken.ne' (by decide : 1 < 256)
  have hmul := Nat.mul_lt_mul_of_pos_left hpow hpos
  omega

end Split

/-! ## Signed tokens -/

/-- The signature of a token is split into r and s. -/
def SplitsInto (token : JsonWebToken) (r s : ℕ) : Prop :=
  ∃ signature, Base64.decode token.encodedSignature = some signature ∧
    splitSignature signature = some (r, s)

section Signed

variable {crypto : Crypto} {token : JsonWebToken} {sign : GoString → Option (ℕ × ℕ)} {r s : ℕ}

theorem splitsInto_iff (hsign : sign (crypto.sha256 token.encode.signedText) = some (r, s)) :
    SplitsInto (token.ecdsaSign crypto sign) r s ↔
      splitSignature (ecdsaSignature r s) = some (r, s) := by
  simp only [SplitsInto, JsonWebToken.ecdsaSign, JsonWebToken.assymSign, hsign, Option.map_some,
    Base64.decode_encode, Option.some.injEq, exists_eq_left']

theorem SplitsInto.checkAssymSignature {key : EcdsaPublicKey} (h : SplitsInto token r s)
    (hverify : crypto.ecdsaVerify key (crypto.sha256 token.signedText) r s = true) :
    token.checkAssymSignature crypto (.ecdsa key) = some true := by
  obtain ⟨signature, hdecode, hsplit⟩ := h
  obtain ⟨front, hfront, hsplit⟩ := Option.bind_eq_some_iff.mp hsplit
  obtain ⟨back, hback, hsplit⟩ := Option.bind_eq_some_iff.mp hsplit
  obtain ⟨rfl, rfl⟩ := Prod.mk.inj (Option.some.inj hsplit)
  simp only [JsonWebToken.checkAssymSignature, JsonWebToken.checkEcdsaSignature, hdecode, hfront,
    hback, Option.bind_eq_bind, Option.bind_some, hverify]

theorem signedText_ecdsaSign (crypto : Crypto) (token : JsonWebToken)
    (sign : GoString → Option (ℕ × ℕ)) :
    (token.ecdsaSign crypto sign).signedText = token.encode.signedText := by
  unfold JsonWebToken.ecdsaSign JsonWebToken.assymSign
  split
  · rfl
  · rfl

end Signed

/-- A signature is split into the numbers it was made of, and then verified, exactly where r takes
all of its 32 bytes. -/
theorem ecdsa_signature_iff (crypto : Crypto) (token : JsonWebToken) (key : EcdsaPublicKey)
    (sign : GoString → Option (ℕ × ℕ)) (r s : ℕ) (hr : 0 < r ∧ r < 2 ^ 256)
    (hsign : sign (crypto.sha256 token.encode.signedText) = some (r, s))
    (hverify : crypto.ecdsaVerify key (crypto.sha256 token.encode.signedText) r s = true) :
    SplitsInto (token.ecdsaSign crypto sign) r s ∧
        (token.ecdsaSign crypto sign).checkAssymSignature crypto (.ecdsa key) = some true ↔
      2 ^ 248 ≤ r := by
  rw [splitsInto_iff hsign]
  constructor
  · rintro ⟨hsplit, -⟩
    by_contra hshort
    exact splitSignature_short hr.1 (by omega) hsplit
  · intro hlong
    have hsplit := splitSignature_long (s := s) hr.2 hlong
    refine ⟨hsplit, ((splitsInto_iff hsign).mpr hsplit).checkAssymSignature ?_⟩
    rw [signedText_ecdsaSign]
    exact hverify

/-- Primitives under which a key accepts one pair of numbers. -/
def pairCrypto (r s : ℕ) : Crypto :=
  { sampleCrypto with ecdsaVerify := fun _ _ r' s' => r' = r && s' = s }

theorem ecdsa_signature_long : SplitsInto (({} : JsonWebToken).ecdsaSign (pairCrypto (2 ^ 255) 1)
      fun _ => some (2 ^ 255, 1)) (2 ^ 255) 1 ∧
    (({} : JsonWebToken).ecdsaSign (pairCrypto (2 ^ 255) 1)
      fun _ => some (2 ^ 255, 1)).checkAssymSignature (pairCrypto (2 ^ 255) 1) (.ecdsa ⟨0, 0⟩) =
        some true :=
  (ecdsa_signature_iff (pairCrypto (2 ^ 255) 1) {} ⟨0, 0⟩ (fun _ => some (2 ^ 255, 1)) (2 ^ 255) 1
    (by norm_num) rfl (by simp [pairCrypto])).mpr (by norm_num)

/-- A signature with r one byte short. -/
theorem ecdsa_signature_short : ¬ ∀ (crypto : Crypto) (token : JsonWebToken)
    (key : EcdsaPublicKey) (sign : GoString → Option (ℕ × ℕ)) (r s : ℕ),
    0 < r ∧ r < 2 ^ 256 → 0 < s ∧ s < 2 ^ 256 →
      sign (crypto.sha256 token.encode.signedText) = some (r, s) →
      crypto.ecdsaVerify key (crypto.sha256 token.encode.signedText) r s = true →
      SplitsInto (token.ecdsaSign crypto sign) r s ∧
        (token.ecdsaSign crypto sign).checkAssymSignature crypto (.ecdsa key) = some true := by
  intro hall
  have hsplit := (hall (pairCrypto (2 ^ 247) (2 ^ 255)) {} ⟨0, 0⟩
    (fun _ => some (2 ^ 247, 2 ^ 255)) (2 ^ 247) (2 ^ 255) (by norm_num) (by norm_num) rfl
    (by simp [pairCrypto])).1
  exact splitSignature_short (by norm_num) (by norm_num) ((splitsInto_iff rfl).mp hsplit)

end VissServer.Utils
