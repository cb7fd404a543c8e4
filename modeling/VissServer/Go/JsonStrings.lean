import VissServer.Go.JsonDecode
import VissServer.Go.JsonEncode

/-!
Strings in JSON texts: a string that decoding yields is a sequence of valid UTF-8
encodings, and reading what json.Marshal prints for a string gives the string with
U+FFFD in place of each byte that is not part of a valid encoding.
-/
namespace VissServer.Go

/-- A valid encoding of one rune. -/
inductive IsRune : GoString → Prop
  | one {a : UInt8} : leadLen a = 1 → IsRune [a]
  | two {a b : UInt8} : leadLen a = 2 → secondOk a b = true → IsRune [a, b]
  | three {a b c : UInt8} : leadLen a = 3 → secondOk a b = true → isTail c = true →
      IsRune [a, b, c]
  | four {a b c d : UInt8} : leadLen a = 4 → secondOk a b = true → isTail c = true →
      isTail d = true → IsRune [a, b, c, d]

/-- A sequence of valid encodings. -/
inductive ValidString : GoString → Prop
  | nil : ValidString []
  | cons {seg s : GoString} : IsRune seg → ValidString s → ValidString (seg ++ s)

theorem IsRune.ne_nil {seg : GoString} (h : IsRune seg) : seg ≠ [] := by
  cases h <;> simp

theorem IsRune.runeLen_append {seg : GoString} (h : IsRune seg) (rest : GoString) :
    runeLen (seg ++ rest) = seg.length := by
  cases h with
  | one ha => simp [runeLen, ha]
  | two ha hb => simp [runeLen, ha, hb]
  | three ha hb hc => simp [runeLen, ha, hb, hc]
  | four ha hb hc hd => simp [runeLen, ha, hb, hc, hd]

/-- The bytes that runeLen counts are a valid encoding. -/
theorem isRune_take {s : GoString} (h : runeLen s ≠ 0) : IsRune (s.take (runeLen s)) := by
  unfold runeLen at h ⊢
  split at h
  · exact absurd rfl h
  · split at h
    · next ha => simpa [ha] using IsRune.one ha
    · next ha =>
      split at h
      · next hb => simpa [ha, hb] using IsRune.two ha hb
      · exact absurd rfl h
    · next ha =>
      split at h
      · next hb => simpa [ha, hb] using IsRune.three ha hb.1 hb.2
      · exact absurd rfl h
    · next ha =>
      split at h
      · next hb => simpa [ha, hb] using IsRune.four ha hb.1 hb.2.1 hb.2.2
      · exact absurd rfl h
    · exact absurd rfl h

theorem isRune_replacementChar : IsRune replacementChar := .three rfl rfl rfl

/-- A byte built from a number below 256. -/
theorem toNat_ofNat_of_lt {n : ℕ} (h : n < 256) : (UInt8.ofNat n).toNat = n := by
  simp only [UInt8.toNat_ofNat']
  omega

/-- The lead bytes by their numbers. -/
theorem leadLen_ofNat {n : ℕ} (h : n < 256) :
    leadLen (UInt8.ofNat n) = if n < 0x80 then 1 else if 0xC2 ≤ n ∧ n ≤ 0xDF then 2
      else if 0xE0 ≤ n ∧ n ≤ 0xEF then 3 else if 0xF0 ≤ n ∧ n ≤ 0xF4 then 4 else 0 := by
  unfold leadLen
  simp only [UInt8.lt_iff_toNat_lt, UInt8.le_iff_toNat_le, toNat_ofNat_of_lt h]
  rfl

theorem isTail_ofNat {n : ℕ} (h : n < 64) : isTail (UInt8.ofNat (0x80 + n)) = true := by
  have hn : (UInt8.ofNat (0x80 + n)).toNat = 0x80 + n := toNat_ofNat_of_lt (by omega)
  have hlow : (0x80 : UInt8).toNat = 0x80 := rfl
  have hhigh : (0xBF : UInt8).toNat = 0xBF := rfl
  simp only [isTail, Bool.and_eq_true, decide_eq_true_eq, UInt8.le_iff_toNat_le, hn]
  omega

/-- The second byte, which the lead bytes 0xE0, 0xED, 0xF0 and 0xF4 restrict. -/
theorem secondOk_ofNat {a n : ℕ} (ha : a < 256) (h : n < 64) (hE0 : a = 0xE0 → 32 ≤ n)
    (hED : a = 0xED → n < 32) (hF0 : a = 0xF0 → 16 ≤ n) (hF4 : a = 0xF4 → n < 16) :
    secondOk (UInt8.ofNat a) (UInt8.ofNat (0x80 + n)) = true := by
  have hn : (UInt8.ofNat (0x80 + n)).toNat = 0x80 + n := toNat_ofNat_of_lt (by omega)
  have heq : ∀ {b : ℕ}, b < 256 → (UInt8.ofNat a = UInt8.ofNat b ↔ a = b) := fun {b} hb => by
    rw [← UInt8.toNat_inj, toNat_ofNat_of_lt ha, toNat_ofNat_of_lt hb]
  unfold secondOk
  rw [show (0xE0 : UInt8) = UInt8.ofNat 0xE0 from rfl,
    show (0xED : UInt8) = UInt8.ofNat 0xED from rfl,
    show (0xF0 : UInt8) = UInt8.ofNat 0xF0 from rfl,
    show (0xF4 : UInt8) = UInt8.ofNat 0xF4 from rfl]
  simp only [heq (show 0xE0 < 256 by omega), heq (show 0xED < 256 by omega),
    heq (show 0xF0 < 256 by omega), heq (show 0xF4 < 256 by omega)]
  have h9F : (0x9F : UInt8).toNat = 0x9F := rfl
  have hA0 : (0xA0 : UInt8).toNat = 0xA0 := rfl
  have h90 : (0x90 : UInt8).toNat = 0x90 := rfl
  have h8F : (0x8F : UInt8).toNat = 0x8F := rfl
  have h80 : (0x80 : UInt8).toNat = 0x80 := rfl
  have hBF : (0xBF : UInt8).toNat = 0xBF := rfl
  split
  · simp only [Bool.and_eq_true, decide_eq_true_eq, UInt8.le_iff_toNat_le, hn]
    omega
  · split
    · simp only [Bool.and_eq_true, decide_eq_true_eq, UInt8.le_iff_toNat_le, hn]
      omega
    · split
      · simp only [Bool.and_eq_true, decide_eq_true_eq, UInt8.le_iff_toNat_le, hn]
        omega
      · split
        · simp only [Bool.and_eq_true, decide_eq_true_eq, UInt8.le_iff_toNat_le, hn]
          omega
        · exact isTail_ofNat h

/-- Every rune that EncodeRune prints is a valid encoding. -/
theorem isRune_encodeRune (n : ℕ) : IsRune (encodeRune n) := by
  unfold encodeRune
  split
  · next h =>
    refine .one ?_
    rw [leadLen_ofNat (by omega), if_pos h]
  · split
    · refine .two ?_ ?_
      · rw [leadLen_ofNat (by omega), if_neg (by omega), if_pos (by omega)]
      · exact secondOk_ofNat (by omega) (by omega) (by omega) (by omega) (by omega) (by omega)
    · split
      · exact isRune_replacementChar
      · split
        · refine .three ?_ ?_ (isTail_ofNat (by omega))
          · rw [leadLen_ofNat (by omega), if_neg (by omega), if_neg (by omega), if_pos (by omega)]
          · exact secondOk_ofNat (by omega) (by omega) (by omega) (by omega) (by omega) (by omega)
        · refine .four ?_ ?_ (isTail_ofNat (by omega)) (isTail_ofNat (by omega))
          · rw [leadLen_ofNat (by omega), if_neg (by omega), if_neg (by omega),
              if_neg (by omega), if_pos (by omega)]
          · exact secondOk_ofNat (by omega) (by omega) (by omega) (by omega) (by omega) (by omega)

@[simp] theorem expect_self (c : UInt8) (s : GoString) : expect c (c :: s) = some s := by
  simp [expect]

theorem expect_of_ne {c x : UInt8} (h : x ≠ c) (s : GoString) : expect c (x :: s) = none := by
  simp [expect, h]

theorem expect_some {c : UInt8} {s rest : GoString} (h : expect c s = some rest) :
    s = c :: rest := by
  cases s with
  | nil => simp [expect] at h
  | cons x s =>
    simp only [expect, Option.ite_none_right_eq_some, Option.some.injEq] at h
    rw [h.1, h.2]

theorem unicodeEscape_isRune {s t rest : GoString} (h : unicodeEscape s = some (t, rest)) :
    IsRune t := by
  simp only [unicodeEscape, Option.bind_eq_bind, Option.bind_eq_some_iff] at h
  obtain ⟨⟨n, s'⟩, -, h⟩ := h
  split at h
  · split at h
    · obtain ⟨rfl, -⟩ := Prod.mk.inj (Option.some.inj h)
      exact isRune_encodeRune _
    · obtain ⟨rfl, -⟩ := Prod.mk.inj (Option.some.inj h)
      exact isRune_replacementChar
  · obtain ⟨rfl, -⟩ := Prod.mk.inj (Option.some.inj h)
    exact isRune_encodeRune _

theorem escape_isRune {s t rest : GoString} (h : escape s = some (t, rest)) : IsRune t := by
  cases s with
  | nil => simp [escape] at h
  | cons c s =>
    rw [escape] at h
    split at h
    · next hc =>
      obtain ⟨rfl, -⟩ := Prod.mk.inj (Option.some.inj h)
      rcases hc with rfl | rfl | rfl <;> exact .one rfl
    · repeat' split at h
      all_goals first
        | exact unicodeEscape_isRune h
        | (obtain ⟨rfl, -⟩ := Prod.mk.inj (Option.some.inj h); exact .one rfl)
        | simp at h

/-- Each character that is read is one valid encoding. -/
theorem readChar_isRune {s t rest : GoString} (h : readChar s = some (t, rest)) : IsRune t := by
  cases s with
  | nil => simp [readChar] at h
  | cons c s =>
    rw [readChar] at h
    split at h
    · exact escape_isRune h
    · split at h
      · simp at h
      · split at h
        · obtain ⟨rfl, -⟩ := Prod.mk.inj (Option.some.inj h)
          exact isRune_replacementChar
        · next hlen =>
          obtain ⟨rfl, -⟩ := Prod.mk.inj (Option.some.inj h)
          exact isRune_take hlen

/-- Strings that are read from a text are valid. -/
theorem readString_valid {n : ℕ} {s t rest : GoString} (h : readString n s = some (t, rest)) :
    ValidString t := by
  induction n generalizing s t rest with
  | zero => simp [readString] at h
  | succ n ih =>
    unfold readString at h
    split at h
    · obtain ⟨rfl, -⟩ := Prod.mk.inj (Option.some.inj h)
      exact .nil
    · simp only [Option.bind_eq_bind, Option.bind_eq_some_iff, Option.some.injEq,
        Prod.mk.injEq] at h
      obtain ⟨⟨c, s'⟩, hc, ⟨t', s''⟩, ht, rfl, -⟩ := h
      exact .cons (readChar_isRune hc) (ih ht)

theorem segmentsUpTo_of_le {n : ℕ} {s : GoString} (h : s.length ≤ n) :
    segmentsUpTo n s = segments s := by
  suffices hind : ∀ k s, s.length ≤ k → ∀ n, s.length ≤ n → ∀ m, s.length ≤ m →
      segmentsUpTo n s = segmentsUpTo m s from hind s.length s le_rfl n h _ le_rfl
  intro k
  induction k with
  | zero =>
    intro s hs n _ m _
    rw [List.length_eq_zero_iff.mp (Nat.le_zero.mp hs)]
    simp [segmentsUpTo]
  | succ k ih =>
    intro s hs n hn m hm
    cases s with
    | nil => simp [segmentsUpTo]
    | cons a s =>
      simp only [List.length_cons] at hs hn hm
      obtain ⟨n, rfl⟩ := Nat.exists_eq_succ_of_ne_zero (show n ≠ 0 by omega)
      obtain ⟨m, rfl⟩ := Nat.exists_eq_succ_of_ne_zero (show m ≠ 0 by omega)
      have hdrop : ((a :: s).drop (max 1 (runeLen (a :: s)))).length ≤ s.length := by
        simp only [List.length_drop, List.length_cons]
        omega
      simp only [segmentsUpTo]
      rw [ih _ (by omega) n (by omega) m (by omega)]

/-- A valid encoding at the head is the first segment. -/
theorem segments_append {seg : GoString} (h : IsRune seg) (s : GoString) :
    segments (seg ++ s) = seg :: segments s := by
  have hlen := h.runeLen_append s
  obtain ⟨a, t, hat⟩ := List.exists_cons_of_ne_nil h.ne_nil
  have hmax : max 1 (runeLen (seg ++ s)) = seg.length := by
    rw [hlen, hat, List.length_cons]
    omega
  subst hat
  rw [segments, List.cons_append, List.length_cons, segmentsUpTo, ← List.cons_append, hmax,
    List.take_left, List.drop_left, segmentsUpTo_of_le (by simp)]

@[simp] theorem segments_nil : segments [] = [] := rfl

theorem hexVal_hexDigit {n : ℕ} (h : n < 16) : hexVal (hexDigit n) = some n := by
  have hall : ∀ n : Fin 16, hexVal (hexDigit n) = some n.val := by decide
  exact hall ⟨n, h⟩

/-- Reading the escape of a control or HTML character. -/
theorem readChar_hex (c : UInt8) (h : c < 128) (rest : GoString) :
    readChar ([92, 117, 48, 48, hexDigit (c.toNat / 16), hexDigit (c.toNat % 16)] ++ rest) =
      some ([c], rest) := by
  have hc : c.toNat < 128 := UInt8.lt_iff_toNat_lt.mp h
  have hzero : hexVal 48 = some 0 := rfl
  have hrune : encodeRune c.toNat = [c] := by
    simp [encodeRune, hc]
  have hnat : 4096 * 0 + 256 * 0 + 16 * (c.toNat / 16) + c.toNat % 16 = c.toNat := by omega
  simp only [readChar, escape, unicodeEscape, hex4, List.cons_append, List.nil_append, if_true,
    hzero, hexVal_hexDigit (show c.toNat / 16 < 16 by omega),
    hexVal_hexDigit (Nat.mod_lt c.toNat (by omega : 16 > 0)), Option.bind_eq_bind,
    Option.bind_some, hnat]
  simp only [show ¬ ((117 : UInt8) = 34 ∨ (117 : UInt8) = 92 ∨ (117 : UInt8) = 47) by decide,
    show ¬ (117 : UInt8) = 98 by decide, show ¬ (117 : UInt8) = 102 by decide,
    show ¬ (117 : UInt8) = 110 by decide, show ¬ (117 : UInt8) = 114 by decide,
    show ¬ (117 : UInt8) = 116 by decide, if_false]
  rw [if_neg (by omega), hrune]

/-- A segment of one byte below 128. -/
theorem readChar_quoteByte {c : UInt8} (h : c < 128) (rest : GoString) :
    readChar (quoteSegment [c] ++ rest) = some ([c], rest) := by
  have hlead : leadLen c = 1 := by
    have hlt : c < 0x80 := h
    simp [leadLen, hlt]
  simp only [quoteSegment]
  split
  · next hc => rcases hc with rfl | rfl <;> rfl
  · next hquote =>
    split
    · next hc => subst hc; rfl
    · split
      · next hc => subst hc; rfl
      · split
        · next hc => subst hc; rfl
        · split
          · exact readChar_hex c h rest
          · next hother =>
            obtain ⟨hcontrol, -⟩ := not_or.mp hother
            obtain ⟨-, hslash⟩ := not_or.mp hquote
            have hlen : runeLen (c :: rest) = 1 := (IsRune.one hlead).runeLen_append rest
            rw [List.singleton_append, readChar, if_neg hslash, if_neg hcontrol, hlen]
            simp

/-- A multi-byte encoding starts with a byte past all that strings treat specially. -/
theorem lead_of_leadLen {a : UInt8} (h : leadLen a ≠ 1) : 128 ≤ a := by
  unfold leadLen at h
  by_contra hlt
  rw [if_pos (by simpa using hlt)] at h
  exact h rfl

theorem lt_of_leadLen {a : UInt8} (h : leadLen a = 1) : a < 128 := by
  by_contra hlow
  rw [leadLen, if_neg hlow] at h
  split_ifs at h
  all_goals omega

/-- A multi-byte encoding is read as it stands. -/
theorem readChar_raw {seg : GoString} (h : IsRune seg) {a : UInt8} {t : GoString}
    (hseg : seg = a :: t) (ha : 128 ≤ a) (rest : GoString) :
    readChar (seg ++ rest) = some (seg, rest) := by
  have hlen := h.runeLen_append rest
  have hne : a ≠ 92 := by
    rintro rfl
    exact absurd ha (by decide)
  have hcontrol : ¬ a < 32 := by
    rw [UInt8.lt_iff_toNat_lt]
    have hnat : (128 : UInt8).toNat ≤ a.toNat := UInt8.le_iff_toNat_le.mp ha
    exact Nat.not_lt.mpr (Nat.le_trans (by decide) hnat)
  rw [hseg, List.cons_append] at hlen ⊢
  rw [readChar, if_neg hne, if_neg hcontrol, hlen, if_neg (by simp)]
  rw [← List.cons_append, List.take_left, List.drop_left]

/-- Reading gives back each character that json.Marshal prints. -/
theorem readChar_quoteSegment {seg : GoString} (h : IsRune seg) (rest : GoString) :
    readChar (quoteSegment seg ++ rest) = some (seg, rest) := by
  have hraw : ∀ {a : UInt8} {b : UInt8} {t : GoString}, seg = a :: b :: t → 128 ≤ a →
      readChar (quoteSegment seg ++ rest) = some (seg, rest) := by
    intro a b t hseg ha
    have hquote : quoteSegment seg = if seg = [0xE2, 0x80, 0xA8] then Go.str "\\u2028"
        else if seg = [0xE2, 0x80, 0xA9] then Go.str "\\u2029" else seg := by
      rw [hseg]
      rfl
    rw [hquote]
    split
    · next heq =>
      rw [heq]
      rfl
    · split
      · next heq =>
        rw [heq]
        rfl
      · exact readChar_raw h hseg ha rest
  cases h with
  | one ha => exact readChar_quoteByte (lt_of_leadLen ha) rest
  | two ha hb => exact hraw rfl (lead_of_leadLen (by omega))
  | three ha hb hc => exact hraw rfl (lead_of_leadLen (by omega))
  | four ha hb hc hd => exact hraw rfl (lead_of_leadLen (by omega))

/-- An invalid byte is printed as the escape of U+FFFD. -/
theorem readChar_invalid {c : UInt8} (h : 128 ≤ c) (rest : GoString) :
    readChar (quoteSegment [c] ++ rest) = some (replacementChar, rest) := by
  have hne : ∀ d : UInt8, d < 128 → c ≠ d := by
    rintro d hd rfl
    rw [UInt8.lt_iff_toNat_lt] at hd
    exact absurd (UInt8.le_iff_toNat_le.mp h) (Nat.not_le.mpr hd)
  have hcontrol : ¬ c < 32 := by
    rw [UInt8.lt_iff_toNat_lt]
    exact Nat.not_lt.mpr (Nat.le_trans (by decide) (UInt8.le_iff_toNat_le.mp h))
  have hascii : ¬ c < 128 := by
    rw [UInt8.lt_iff_toNat_lt]
    exact Nat.not_lt.mpr (UInt8.le_iff_toNat_le.mp h)
  have hquote : quoteSegment [c] = [92, 117, 102, 102, 102, 100] := by
    simp [quoteSegment, hne 34 (by decide), hne 92 (by decide), hne 10 (by decide),
      hne 13 (by decide), hne 9 (by decide), hne 60 (by decide), hne 62 (by decide),
      hne 38 (by decide), hcontrol, hascii]
  rw [hquote]
  rfl

/-- What reading makes of one printed segment. -/
def sanitizeSegment (seg : GoString) : GoString := if runeLen seg = 0 then replacementChar else seg

/-- The string with U+FFFD in place of each invalid byte. -/
def sanitizeString (s : GoString) : GoString := (segments s).flatMap sanitizeSegment

/-- A segment of a string: a valid encoding, or a byte that starts none. -/
inductive IsSegment : GoString → Prop
  | rune {seg : GoString} : IsRune seg → IsSegment seg
  | invalid {c : UInt8} : 128 ≤ c → runeLen [c] = 0 → IsSegment [c]

theorem IsRune.runeLen_ne_zero {seg : GoString} (h : IsRune seg) : runeLen seg ≠ 0 := by
  have hlen := h.runeLen_append []
  rw [List.append_nil] at hlen
  rw [hlen]
  exact List.length_pos_iff.mpr h.ne_nil |>.ne'

theorem readChar_segment {seg : GoString} (h : IsSegment seg) (rest : GoString) :
    readChar (quoteSegment seg ++ rest) = some (sanitizeSegment seg, rest) := by
  cases h with
  | rune hrune => rw [sanitizeSegment, if_neg hrune.runeLen_ne_zero, readChar_quoteSegment hrune]
  | invalid hc hlen => rw [sanitizeSegment, if_pos hlen, readChar_invalid hc]

/-- A string is taken apart into its first segment and the segments of the rest. -/
theorem segments_cons (a : UInt8) (t : GoString) :
    ∃ seg s, a :: t = seg ++ s ∧ IsSegment seg ∧ segments (a :: t) = seg :: segments s ∧
      s.length ≤ t.length := by
  by_cases hlen : runeLen (a :: t) = 0
  · refine ⟨[a], t, rfl, .invalid ?_ ?_, ?_, le_rfl⟩
    · refine lead_of_leadLen fun hlead => ?_
      exact absurd ((IsRune.one hlead).runeLen_append t) (by simp [hlen])
    · unfold runeLen
      split
      · rfl
      · next b s heq =>
        obtain ⟨rfl, rfl⟩ := List.cons.inj heq
        split
        · next hlead => exact absurd ((IsRune.one hlead).runeLen_append t) (by simp [hlen])
        all_goals first | rfl | simp_all
    · rw [segments, List.length_cons, segmentsUpTo, hlen]
      rfl
  · refine ⟨_, _, (List.take_append_drop (runeLen (a :: t)) (a :: t)).symm,
      .rune (isRune_take hlen), ?_, ?_⟩
    · rw [← segments_append (isRune_take hlen), List.take_append_drop]
    · simp only [List.length_drop, List.length_cons]
      omega

theorem quoteSegment_ne_nil {seg : GoString} (h : IsSegment seg) : quoteSegment seg ≠ [] := by
  intro hnil
  have hread := readChar_segment h []
  simp [hnil, readChar] at hread

/-- A printed character does not end the string. -/
theorem expect_quoteSegment {seg : GoString} (h : IsSegment seg) (rest : GoString) :
    expect 34 (quoteSegment seg ++ rest) = none := by
  cases hexpect : expect 34 (quoteSegment seg ++ rest) with
  | none => rfl
  | some x =>
    exfalso
    have htext := expect_some hexpect
    have hread := readChar_segment h rest
    have hquote : readChar (34 :: x) = some ([34], x) := by
      have hlen : runeLen (34 :: x) = 1 :=
        (IsRune.one (show leadLen 34 = 1 from rfl)).runeLen_append x
      rw [readChar, if_neg (by decide), if_neg (by decide), hlen]
      simp
    rw [htext, hquote] at hread
    obtain ⟨hseg, rfl⟩ := Prod.mk.inj (Option.some.inj hread)
    have hself : seg = [34] := by
      unfold sanitizeSegment at hseg
      split at hseg
      · exact absurd hseg (by decide)
      · exact hseg.symm
    rw [hself] at htext
    have hhead : (92 : UInt8) = 34 := (List.cons.inj htext).1
    exact absurd hhead (by decide)

/-- Reading what json.Marshal prints for a string. -/
theorem readString_quoted (s : GoString) {n : ℕ} (hn : (segments s).length < n)
    (rest : GoString) :
    readString n ((segments s).flatMap quoteSegment ++ 34 :: rest) =
      some (sanitizeString s, rest) := by
  suffices hind : ∀ k s, s.length ≤ k → ∀ n, (segments s).length < n →
      readString n ((segments s).flatMap quoteSegment ++ 34 :: rest) =
        some (sanitizeString s, rest) from hind s.length s le_rfl n hn
  intro k
  induction k with
  | zero =>
    intro s hs n hn
    obtain rfl := List.length_eq_zero_iff.mp (Nat.le_zero.mp hs)
    obtain ⟨n, rfl⟩ := Nat.exists_eq_succ_of_ne_zero (show n ≠ 0 by omega)
    simp [readString, sanitizeString]
  | succ k ih =>
    intro s hs n hn
    cases s with
    | nil => exact ih [] (Nat.zero_le k) n hn
    | cons a t =>
      obtain ⟨seg, s, -, hseg, hsegs, hlen⟩ := segments_cons a t
      rw [List.length_cons] at hs
      rw [hsegs, List.length_cons] at hn
      obtain ⟨n, rfl⟩ := Nat.exists_eq_succ_of_ne_zero (show n ≠ 0 by omega)
      have hrest := ih s (by omega) n (by omega)
      rw [sanitizeString, hsegs, List.flatMap_cons, List.append_assoc, readString,
        expect_quoteSegment hseg]
      simp only [readChar_segment hseg, hrest, Option.bind_eq_bind, Option.bind_some,
        List.flatMap_cons, sanitizeString]

theorem length_segments_le (s : GoString) :
    (segments s).length ≤ ((segments s).flatMap quoteSegment).length := by
  suffices hind : ∀ k s, s.length ≤ k →
      (segments s).length ≤ ((segments s).flatMap quoteSegment).length from
    hind s.length s le_rfl
  intro k
  induction k with
  | zero =>
    intro s hs
    obtain rfl := List.length_eq_zero_iff.mp (Nat.le_zero.mp hs)
    simp
  | succ k ih =>
    intro s hs
    cases s with
    | nil => simp
    | cons a t =>
      obtain ⟨seg, s, -, hseg, hsegs, hlen⟩ := segments_cons a t
      rw [List.length_cons] at hs
      have hrest := ih s (by omega)
      have hpos := List.length_pos_of_ne_nil (quoteSegment_ne_nil hseg)
      rw [hsegs, List.flatMap_cons, List.length_append, List.length_cons]
      omega

/-- A valid string is read back as it is. -/
theorem ValidString.sanitize {s : GoString} (h : ValidString s) : sanitizeString s = s := by
  induction h with
  | nil => rfl
  | cons hseg _ ih =>
    rw [sanitizeString] at ih ⊢
    rw [segments_append hseg, List.flatMap_cons, ih, sanitizeSegment,
      if_neg hseg.runeLen_ne_zero]

theorem validString_sanitize (s : GoString) : ValidString (sanitizeString s) := by
  induction hs : s.length using Nat.strongRecOn generalizing s with
  | ind n ih =>
    cases s with
    | nil => exact .nil
    | cons a t =>
      obtain ⟨seg, s, -, hseg, hsegs, hlen⟩ := segments_cons a t
      rw [List.length_cons] at hs
      rw [sanitizeString, hsegs, List.flatMap_cons]
      refine .cons ?_ (ih s.length (by omega) s rfl)
      cases hseg with
      | rune hrune =>
        rw [sanitizeSegment, if_neg hrune.runeLen_ne_zero]
        exact hrune
      | invalid _ hnone =>
        rw [sanitizeSegment, if_pos hnone]
        exact isRune_replacementChar

theorem sanitizeString_eq_self_iff {s : GoString} : sanitizeString s = s ↔ ValidString s := by
  refine ⟨fun h => ?_, ValidString.sanitize⟩
  rw [← h]
  exact validString_sanitize s

/-- Bytes that stand for themselves in a JSON string. -/
def isPlain (c : UInt8) : Bool := 32 ≤ c && c < 128 && c ≠ 34 && c ≠ 92

theorem isRune_of_isPlain {c : UInt8} (h : isPlain c = true) : IsRune [c] := by
  simp only [isPlain, Bool.and_eq_true, decide_eq_true_eq] at h
  have hlt : c < 0x80 := h.1.1.2
  exact .one (by simp [leadLen, hlt])

/-- A string that is printed without escapes. -/
theorem quote_of_isPlain {s : GoString}
    (h : ∀ c ∈ s, isPlain c = true ∧ c ≠ 60 ∧ c ≠ 62 ∧ c ≠ 38) : quote s = 34 :: (s ++ [34]) := by
  have hsegments : (segments s).flatMap quoteSegment = s := by
    induction s with
    | nil => rfl
    | cons c s ih =>
      obtain ⟨⟨hplain, hless, hgreater, hand⟩, hs⟩ := List.forall_mem_cons.mp h
      have hrune := segments_append (isRune_of_isPlain hplain) s
      simp only [isPlain, Bool.and_eq_true, decide_eq_true_eq] at hplain
      obtain ⟨⟨⟨hlow, hhigh⟩, hquote⟩, hslash⟩ := hplain
      have hcontrol : ¬ c < 32 := by
        rw [UInt8.lt_iff_toNat_lt]
        exact Nat.not_lt.mpr (UInt8.le_iff_toNat_le.mp hlow)
      have hne : c ≠ 10 ∧ c ≠ 13 ∧ c ≠ 9 := by
        refine ⟨?_, ?_, ?_⟩
        all_goals
          rintro rfl
          exact hcontrol (by decide)
      have hself : quoteSegment [c] = [c] := by
        simp only [quoteSegment]
        rw [if_neg (by simp [hquote, hslash]), if_neg hne.1, if_neg hne.2.1, if_neg hne.2.2,
          if_neg (by simp [hcontrol, hless, hgreater, hand]), if_pos hhigh]
      rw [List.singleton_append] at hrune
      rw [hrune, List.flatMap_cons, hself, ih hs, List.singleton_append]
  rw [quote, hsegments]

/-- Reading a string that is written without escapes. -/
theorem readString_plain {s : GoString} (h : ∀ c ∈ s, isPlain c = true) {n : ℕ}
    (hn : s.length < n) (rest : GoString) :
    readString n (s ++ 34 :: rest) = some (s, rest) := by
  induction s generalizing n with
  | nil =>
    obtain ⟨n, rfl⟩ := Nat.exists_eq_succ_of_ne_zero (show n ≠ 0 by omega)
    simp [readString]
  | cons c s ih =>
    obtain ⟨hc, hs⟩ := List.forall_mem_cons.mp h
    rw [List.length_cons] at hn
    obtain ⟨n, rfl⟩ := Nat.exists_eq_succ_of_ne_zero (show n ≠ 0 by omega)
    simp only [isPlain, Bool.and_eq_true, decide_eq_true_eq] at hc
    obtain ⟨⟨⟨hlow, hhigh⟩, hquote⟩, hslash⟩ := hc
    have hlead : leadLen c = 1 := by
      have hlt : c < 0x80 := hhigh
      simp [leadLen, hlt]
    have hlen : runeLen (c :: (s ++ 34 :: rest)) = 1 := (IsRune.one hlead).runeLen_append _
    have hcontrol : ¬ c < 32 := by
      rw [UInt8.lt_iff_toNat_lt]
      exact Nat.not_lt.mpr (UInt8.le_iff_toNat_le.mp hlow)
    have hread : readChar (c :: (s ++ 34 :: rest)) = some ([c], s ++ 34 :: rest) := by
      rw [readChar, if_neg hslash, if_neg hcontrol, hlen]
      simp
    rw [List.cons_append, readString, expect_of_ne hquote]
    simp only [hread, ih hs (show s.length < n by omega), Option.bind_eq_bind, Option.bind_some]
    rfl

theorem validString_of_isPlain {s : GoString} (h : ∀ c ∈ s, isPlain c = true) : ValidString s :=
  readString_valid (readString_plain h (Nat.lt_succ_self _) [])

end VissServer.Go
