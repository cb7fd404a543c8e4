import VissServer.Go.Strings

/-!
The encoding base64.RawURLEncoding: the URL alphabet without padding.
-/
namespace VissServer.Go.Base64

/-- The character of a sextet. -/
def encodeSextet (n : ℕ) : UInt8 :=
  UInt8.ofNat (if n < 26 then 65 + n else if n < 52 then 71 + n else if n < 62 then n - 4
    else if n = 62 then 45 else 95)

/-- The sextet of a character. -/
def decodeSextet (c : UInt8) : Option ℕ :=
  if 65 ≤ c ∧ c ≤ 90 then some (c.toNat - 65)
  else if 97 ≤ c ∧ c ≤ 122 then some (c.toNat - 71)
  else if 48 ≤ c ∧ c ≤ 57 then some (c.toNat + 4)
  else if c = 45 then some 62
  else if c = 95 then some 63
  else none

/-- EncodeToString. -/
def encode : GoString → GoString
  | a :: b :: c :: s =>
      encodeSextet (a.toNat / 4) :: encodeSextet (a.toNat % 4 * 16 + b.toNat / 16) ::
        encodeSextet (b.toNat % 16 * 4 + c.toNat / 64) :: encodeSextet (c.toNat % 64) :: encode s
  | [a, b] =>
      [encodeSextet (a.toNat / 4), encodeSextet (a.toNat % 4 * 16 + b.toNat / 16),
        encodeSextet (b.toNat % 16 * 4)]
  | [a] => [encodeSextet (a.toNat / 4), encodeSextet (a.toNat % 4 * 16)]
  | [] => []

/-- The bytes of complete quanta up to the first error, and whether there was none. -/
def decodeQuanta : List (Option ℕ) → GoString × Bool
  | some a :: some b :: some c :: some d :: rest =>
      let (bytes, ok) := decodeQuanta rest
      (UInt8.ofNat (a * 4 + b / 16) :: UInt8.ofNat (b % 16 * 16 + c / 4) ::
        UInt8.ofNat (c % 4 * 64 + d) :: bytes, ok)
  | [some a, some b, some c] =>
      ([UInt8.ofNat (a * 4 + b / 16), UInt8.ofNat (b % 16 * 16 + c / 4)], true)
  | [some a, some b] => ([UInt8.ofNat (a * 4 + b / 16)], true)
  | [] => ([], true)
  | _ => ([], false)

/-- DecodeString: the bytes decoded before an error are returned with it. Line
breaks are skipped. -/
def decodeString (s : GoString) : GoString × Bool :=
  decodeQuanta ((s.filter fun c => c ≠ 10 ∧ c ≠ 13).map decodeSextet)

/-- DecodeString where the caller checks the error. -/
def decode (s : GoString) : Option GoString :=
  if (decodeString s).2 then some (decodeString s).1 else none

theorem decodeSextet_encodeSextet {n : ℕ} (hn : n < 64) :
    decodeSextet (encodeSextet n) = some n := by
  have h : ∀ i : Fin 64, decodeSextet (encodeSextet i) = some i.val := by decide
  exact h ⟨n, hn⟩

/-- No sextet is printed as a line break. -/
theorem encodeSextet_ne {n : ℕ} (hn : n < 64) : encodeSextet n ≠ 10 ∧ encodeSextet n ≠ 13 := by
  have h : ∀ i : Fin 64, encodeSextet i ≠ 10 ∧ encodeSextet i ≠ 13 := by decide
  exact h ⟨n, hn⟩

theorem decodeString_cons {n : ℕ} (hn : n < 64) (sextets : List (Option ℕ)) (s : GoString)
    (hs : (s.filter fun c => c ≠ 10 ∧ c ≠ 13).map decodeSextet = sextets) :
    ((encodeSextet n :: s).filter fun c => c ≠ 10 ∧ c ≠ 13).map decodeSextet =
      some n :: sextets := by
  have hne := encodeSextet_ne hn
  rw [List.filter_cons_of_pos (by simpa using hne), List.map_cons, hs,
    decodeSextet_encodeSextet hn]

theorem ofNat_eq {n : ℕ} {c : UInt8} (h : n = c.toNat) : UInt8.ofNat n = c := by
  rw [h, UInt8.ofNat_toNat]

/-- Decoding undoes encoding. -/
theorem decodeString_encode (s : GoString) : decodeString (encode s) = (s, true) := by
  unfold decodeString
  induction s using encode.induct with
  | case1 a b c s ih =>
    have ha := a.toNat_lt
    have hb := b.toNat_lt
    have hc := c.toNat_lt
    rw [encode, decodeString_cons (by omega) _ _ (decodeString_cons (by omega) _ _
      (decodeString_cons (by omega) _ _ (decodeString_cons (by omega) _ _ rfl))), decodeQuanta, ih]
    simp only [Prod.mk.injEq, List.cons.injEq, and_true]
    exact ⟨ofNat_eq (by omega), ofNat_eq (by omega), ofNat_eq (by omega)⟩
  | case2 a b =>
    have ha := a.toNat_lt
    have hb := b.toNat_lt
    rw [encode, decodeString_cons (by omega) _ _ (decodeString_cons (by omega) _ _
      (decodeString_cons (by omega) _ _ rfl))]
    simp only [List.filter_nil, List.map_nil, decodeQuanta, Prod.mk.injEq, List.cons.injEq, and_true]
    exact ⟨ofNat_eq (by omega), ofNat_eq (by omega)⟩
  | case3 a =>
    have ha := a.toNat_lt
    rw [encode, decodeString_cons (by omega) _ _ (decodeString_cons (by omega) _ _ rfl)]
    simp only [List.filter_nil, List.map_nil, decodeQuanta, Prod.mk.injEq, List.cons.injEq, and_true]
    exact ofNat_eq (by omega)
  | case4 => rfl

theorem encode_injective : Function.Injective encode := by
  intro s t h
  have hdecode := congrArg decodeString h
  rw [decodeString_encode, decodeString_encode] at hdecode
  exact congrArg Prod.fst hdecode

theorem none_notMem_of_decodeQuanta {sextets : List (Option ℕ)}
    (h : (decodeQuanta sextets).2 = true) : none ∉ sextets := by
  induction sextets using decodeQuanta.induct with
  | case1 a b c d rest bytes ok hrest ih =>
    have hmem := ih (by simpa [decodeQuanta] using h)
    simp [hmem]
  | case2 a b c => simp
  | case3 a b => simp
  | case4 => simp
  | case5 sextets => simp [decodeQuanta] at h

/-- What decodes has only characters of the alphabet and line breaks. -/
theorem decodeSextet_of_mem {s bytes : GoString} (h : decode s = some bytes) {c : UInt8}
    (hc : c ∈ s) (h₁ : c ≠ 10) (h₂ : c ≠ 13) : decodeSextet c ≠ none := by
  have hok : (decodeString s).2 = true := by
    by_contra hno
    simp [decode, hno] at h
  intro hnone
  apply none_notMem_of_decodeQuanta hok
  exact List.mem_map.mpr ⟨c, List.mem_filter.mpr ⟨hc, by simp [h₁, h₂]⟩, hnone⟩

/-- What decodes has neither quotation marks nor braces. -/
theorem ne_of_mem_of_decode {s bytes : GoString} (h : decode s = some bytes) {c : UInt8}
    (hc : c ∈ s) : c ≠ 34 ∧ c ≠ 123 := by
  have hsome := decodeSextet_of_mem h hc
  constructor
  · rintro rfl
    exact hsome (by decide) (by decide) (by decide)
  · rintro rfl
    exact hsome (by decide) (by decide) (by decide)

theorem decode_encode (s : GoString) : decode (encode s) = some s := by
  simp [decode, decodeString_encode]

/-- An encoded text can stand in front of a dot. -/
theorem encode_noDot (s : GoString) : 46 ∉ encode s := by
  intro hmem
  exact decodeSextet_of_mem (decode_encode s) hmem (by decide) (by decide) (by decide)

/-- All characters of an encoded text are in the alphabet. -/
theorem decodeSextet_of_mem_encode {s : GoString} {c : UInt8} (hc : c ∈ encode s) :
    (decodeSextet c).isSome := by
  have hsextet : ∀ {n : ℕ}, n < 64 → c = encodeSextet n → (decodeSextet c).isSome := by
    intro n hn heq
    rw [heq, decodeSextet_encodeSextet hn]
    rfl
  induction s using encode.induct with
  | case1 a b d s ih =>
    have ha := a.toNat_lt
    have hb := b.toNat_lt
    have hd := d.toNat_lt
    simp only [encode, List.mem_cons] at hc
    rcases hc with hc | hc | hc | hc | hc
    · exact hsextet (by omega) hc
    · exact hsextet (by omega) hc
    · exact hsextet (by omega) hc
    · exact hsextet (by omega) hc
    · exact ih hc
  | case2 a b =>
    have ha := a.toNat_lt
    have hb := b.toNat_lt
    simp only [encode, List.mem_cons, List.not_mem_nil, or_false] at hc
    rcases hc with hc | hc | hc
    · exact hsextet (by omega) hc
    · exact hsextet (by omega) hc
    · exact hsextet (by omega) hc
  | case3 a =>
    have ha := a.toNat_lt
    simp only [encode, List.mem_cons, List.not_mem_nil, or_false] at hc
    rcases hc with hc | hc
    · exact hsextet (by omega) hc
    · exact hsextet (by omega) hc
  | case4 => simp [encode] at hc

end VissServer.Go.Base64
