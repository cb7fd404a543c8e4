import VissServer.Feeder.ConversionMap
import VissServer.Go.JsonKept
import VissServer.Library.Traversals

/-!
The list of scaling data, which the domain conversion tool writes into a JSON file and the
feeder reads (DomainConversionTool.go, feederv2.go). The tool puts a backslash in front of
quotes only, and prints each other byte as the rune of its number.
-/
namespace VissServer.Feeder

open Go

/-- The first item of the file, which the tool numbers 1. -/
def booleanMap : GoString := str "\x7b\"false\":\"0\", \"true\":\"1\"\x7d"

def insertEscape (jsonString : GoString) : GoString :=
  jsonString.flatMap fun c => if c = 34 then str "\\\"" else encodeRune c.toNat

/-- The loop of writescaleDataList. -/
def writeEntries (f : OsFile) : List GoString → OsFile
  | [] => f
  | [s] => f.write (str "\"" ++ insertEscape s ++ str "\"")
  | s :: entries => writeEntries (f.write (str "\"" ++ insertEscape s ++ str "\",")) entries

/-- The content of the file afterwards. -/
def writescaleDataList (scaleDataList : List GoString) (previous : GoString) : GoString :=
  let f := OsFile.write { content := previous } (str "[\n")
  let f := f.write (str "\"\x7b\\\"false\\\":\\\"0\\\", \\\"true\\\":\\\"1\\\"\x7d\",")
  let f := writeEntries f scaleDataList
  (f.write (str "]\n")).content

/-- A file that cannot be decoded gives nil. -/
def readscalingDataList (data : GoString) : List GoString := (unmarshalStrings data).getD []

/-- The text that convertValue decodes for a conversion index. -/
def scalingData (scalingDataList : List GoString) (convertIndex : ℕ) : MayPanic GoString :=
  scalingDataList[convertIndex - 1]?

/-! ## Escaped strings -/

section Escapes

variable {n : ℕ} {y rest t r w : GoString} {c : UInt8}

/-- The number of ASCII bytes. -/
def lows (s : GoString) : ℕ := s.countP (· < 128)

theorem lows_cons (c : UInt8) (s : GoString) :
    lows (c :: s) = lows s + if c < 128 then 1 else 0 := by
  rw [lows, List.countP_cons]
  simp [lows]

theorem lows_append (s t : GoString) : lows (s ++ t) = lows s + lows t := List.countP_append

theorem lows_le_of_suffix {s t : GoString} (h : s <:+ t) : lows s ≤ lows t :=
  h.sublist.countP_le

theorem IsRune.lows_le (h : IsRune t) : lows t ≤ 1 := by
  rcases h.cases_head with ⟨a, -, rfl⟩ | hhigh
  · rw [lows_cons]
    split <;> simp [lows]
  · have hzero : lows t = 0 := by
      rw [lows, List.countP_eq_zero]
      intro c hc
      simpa using not_lt_of_le_byte (hhigh c hc)
    omega

theorem encodeRune_low (hc : c < 128) : encodeRune c.toNat = [c] := by
  have hlt : c.toNat < 128 := UInt8.lt_iff_toNat_lt.mp hc
  rw [encodeRune, if_pos hlt, UInt8.ofNat_toNat]

/-- A byte that is not ASCII is printed as two such bytes. -/
theorem encodeRune_high (hc : ¬ c < 128) :
    ∃ a b, encodeRune c.toNat = [a, b] ∧ 128 ≤ a ∧ 128 ≤ b := by
  have hge : ¬ c.toNat < 128 := fun h => hc (UInt8.lt_iff_toNat_lt.mpr h)
  have hlt := c.toNat_lt
  have hrune : encodeRune c.toNat =
      [UInt8.ofNat (0xC0 + c.toNat / 64), UInt8.ofNat (0x80 + c.toNat % 64)] := by
    rw [encodeRune, if_neg hge, if_pos (by omega)]
  refine ⟨_, _, hrune, ?_, ?_⟩
  · rw [UInt8.le_iff_toNat_le, toNat_ofNat_of_lt (by omega)]
    exact Nat.le_trans (by decide : (128 : UInt8).toNat ≤ 0xC0) (Nat.le_add_right _ _)
  · rw [UInt8.le_iff_toNat_le, toNat_ofNat_of_lt (by omega)]
    exact Nat.le_add_right _ _

theorem insertEscape_nil : insertEscape [] = [] := rfl

theorem insertEscape_quote (y : GoString) :
    insertEscape (34 :: y) = 92 :: 34 :: insertEscape y := rfl

theorem insertEscape_cons (hc : c ≠ 34) (y : GoString) :
    insertEscape (c :: y) = encodeRune c.toNat ++ insertEscape y := by
  rw [insertEscape, List.flatMap_cons, if_neg hc]
  rfl

/-- An ASCII byte in front of the quote that ends an escaped string. -/
theorem insertEscape_peel (h : insertEscape y ++ 34 :: rest = c :: t) (hquote : c ≠ 34)
    (hslash : c ≠ 92) (hc : c < 128) :
    ∃ y', y = c :: y' ∧ t = insertEscape y' ++ 34 :: rest := by
  cases y with
  | nil => exact absurd (List.cons.inj h).1.symm hquote
  | cons d y =>
    by_cases hd : d = 34
    · subst hd
      exact absurd (List.cons.inj h).1.symm hslash
    rw [insertEscape_cons hd] at h
    by_cases hlow : d < 128
    · rw [encodeRune_low hlow] at h
      obtain ⟨rfl, rfl⟩ := List.cons.inj h
      exact ⟨y, rfl, rfl⟩
    · obtain ⟨a, b, hrune, ha, -⟩ := encodeRune_high hlow
      rw [hrune] at h
      obtain ⟨rfl, -⟩ := List.cons.inj h
      exact absurd hc (not_lt_of_le_byte ha)

theorem hex4_insertEscape {n : ℕ} (h : hex4 (insertEscape y ++ 34 :: rest) = some (n, r)) :
    ∃ y', y' <:+ y ∧ r = insertEscape y' ++ 34 :: rest := by
  have hdigit : ∀ {c : UInt8} {n : ℕ}, hexVal c = some n → c ≠ 92 := by
    rintro c n hval rfl
    simp [show hexVal 92 = none from rfl] at hval
  generalize htext : insertEscape y ++ 34 :: rest = text at h
  unfold hex4 at h
  split at h
  · next a b c d t =>
    simp only [Option.bind_eq_bind, Option.bind_eq_some_iff, Option.some.injEq,
      Prod.mk.injEq] at h
    obtain ⟨w, ha, x, hb, y, hc, z, hd, -, rfl⟩ := h
    obtain ⟨y₁, rfl, h₁⟩ := insertEscape_peel htext (hexVal_some ha).1 (hdigit ha) (hexVal_some ha).2
    obtain ⟨y₂, rfl, h₂⟩ :=
      insertEscape_peel h₁.symm (hexVal_some hb).1 (hdigit hb) (hexVal_some hb).2
    obtain ⟨y₃, rfl, h₃⟩ :=
      insertEscape_peel h₂.symm (hexVal_some hc).1 (hdigit hc) (hexVal_some hc).2
    obtain ⟨y₄, rfl, h₄⟩ :=
      insertEscape_peel h₃.symm (hexVal_some hd).1 (hdigit hd) (hexVal_some hd).2
    exact ⟨y₄, ⟨[a, b, c, d], rfl⟩, h₄⟩
  · simp at h

/-- A backslash in front of an escaped string and its quote, read as a byte of a text. -/
theorem insertEscape_slash (h : insertEscape y ++ 34 :: rest = 92 :: t) :
    (∃ y', y = 92 :: y' ∧ t = insertEscape y' ++ 34 :: rest) ∨
      ∃ y', y = 34 :: y' ∧ t = 34 :: (insertEscape y' ++ 34 :: rest) := by
  cases y with
  | nil => exact absurd (List.cons.inj h).1 (by decide)
  | cons d y =>
    by_cases hd : d = 34
    · subst hd
      exact .inr ⟨y, rfl, (List.cons.inj h).2.symm⟩
    rw [insertEscape_cons hd] at h
    by_cases hlow : d < 128
    · rw [encodeRune_low hlow] at h
      obtain ⟨rfl, rfl⟩ := List.cons.inj h
      exact .inl ⟨y, rfl, rfl⟩
    · obtain ⟨a, b, hrune, ha, -⟩ := encodeRune_high hlow
      rw [hrune] at h
      obtain ⟨rfl, -⟩ := List.cons.inj h
      exact absurd ha (by decide)

theorem lowSurrogate_insertEscape {n : ℕ}
    (h : lowSurrogate (insertEscape y ++ 34 :: rest) = some (n, r)) :
    ∃ y', y' <:+ y ∧ r = insertEscape y' ++ 34 :: rest := by
  simp only [lowSurrogate, Option.bind_eq_bind, Option.bind_eq_some_iff] at h
  obtain ⟨t, hslash, t', hu, ⟨n', r'⟩, hhex, h⟩ := h
  split at h
  · obtain ⟨-, rfl⟩ := Prod.mk.inj (Option.some.inj h)
    rcases insertEscape_slash (expect_some hslash) with ⟨y₁, rfl, rfl⟩ | ⟨y₁, rfl, rfl⟩
    · obtain ⟨y₂, rfl, rfl⟩ :=
        insertEscape_peel (expect_some hu) (by decide) (by decide) (by decide)
      obtain ⟨y₃, hsuffix, rfl⟩ := hex4_insertEscape hhex
      exact ⟨y₃, hsuffix.trans ⟨[92, 117], rfl⟩, rfl⟩
    · simp [expect] at hu
  · simp at h

theorem unicodeEscape_insertEscape (h : unicodeEscape (insertEscape y ++ 34 :: rest) = some (t, r)) :
    ∃ y', y' <:+ y ∧ r = insertEscape y' ++ 34 :: rest := by
  simp only [unicodeEscape, Option.bind_eq_bind, Option.bind_eq_some_iff] at h
  obtain ⟨⟨n, r'⟩, hhex, h⟩ := h
  obtain ⟨y₁, hsuffix, rfl⟩ := hex4_insertEscape hhex
  dsimp only at h
  split at h
  · split at h
    · next hlow =>
      obtain ⟨-, rfl⟩ := Prod.mk.inj (Option.some.inj h)
      obtain ⟨y₂, hsuffix', rfl⟩ := lowSurrogate_insertEscape hlow
      exact ⟨y₂, hsuffix'.trans hsuffix, rfl⟩
    · obtain ⟨-, rfl⟩ := Prod.mk.inj (Option.some.inj h)
      exact ⟨y₁, hsuffix, rfl⟩
  · obtain ⟨-, rfl⟩ := Prod.mk.inj (Option.some.inj h)
    exact ⟨y₁, hsuffix, rfl⟩

theorem insertEscape_ne_quote (c : UInt8) (y : GoString) :
    insertEscape (c :: y) ++ 34 :: rest ≠ 34 :: t := by
  intro h
  by_cases hc : c = 34
  · subst hc
    exact absurd (List.cons.inj h).1 (by decide)
  rw [insertEscape_cons hc] at h
  by_cases hlow : c < 128
  · rw [encodeRune_low hlow] at h
    exact hc (List.cons.inj h).1
  · obtain ⟨a, b, hrune, ha, -⟩ := encodeRune_high hlow
    rw [hrune] at h
    obtain ⟨rfl, -⟩ := List.cons.inj h
    exact absurd ha (by decide)

/-- No escape begins with a byte that is not ASCII. -/
theorem escape_high (hc : ¬ c < 128) (s : GoString) : escape (c :: s) = none := by
  have hne : ∀ d < 128, c ≠ d := by
    rintro d hd rfl
    exact hc hd
  simp [escape, hne 34 (by decide), hne 92 (by decide), hne 47 (by decide), hne 98 (by decide),
    hne 102 (by decide), hne 110 (by decide), hne 114 (by decide), hne 116 (by decide),
    hne 117 (by decide)]

theorem lows_encodeRune (c : UInt8) : lows (encodeRune c.toNat) = lows [c] := by
  by_cases hc : c < 128
  · rw [encodeRune_low hc]
  · obtain ⟨a, b, hrune, ha, hb⟩ := encodeRune_high hc
    rw [hrune]
    simp [lows, hc, not_lt_of_le_byte ha, not_lt_of_le_byte hb]

/-- What is read behind a backslash of the string itself. -/
theorem escape_insertEscape (h : escape (insertEscape y ++ 34 :: rest) = some (t, r)) :
    (y = [] ∧ r = rest) ∨
      (∃ y', y = 34 :: y' ∧ t = [92] ∧ r = 34 :: (insertEscape y' ++ 34 :: rest)) ∨
      ∃ y', y' <:+ y ∧ lows y' < lows y ∧ r = insertEscape y' ++ 34 :: rest := by
  generalize htext : insertEscape y ++ 34 :: rest = text at h
  cases text with
  | nil => simp [escape] at h
  | cons c text =>
    by_cases hquote : c = 34
    · subst hquote
      rw [escape, if_pos (.inl rfl)] at h
      obtain ⟨-, rfl⟩ := Prod.mk.inj (Option.some.inj h)
      cases y with
      | nil => exact .inl ⟨rfl, (List.cons.inj htext).2.symm⟩
      | cons d y => exact absurd htext (insertEscape_ne_quote d y)
    by_cases hslash : c = 92
    · subst hslash
      rw [escape, if_pos (.inr (.inl rfl))] at h
      obtain ⟨rfl, rfl⟩ := Prod.mk.inj (Option.some.inj h)
      rcases insertEscape_slash htext with ⟨y', rfl, rfl⟩ | ⟨y', rfl, rfl⟩
      · refine .inr (.inr ⟨y', List.suffix_cons .., ?_, rfl⟩)
        rw [lows_cons, if_pos (by decide)]
        omega
      · exact .inr (.inl ⟨y', rfl, rfl, rfl⟩)
    have hlow : c < 128 := by
      by_contra hhigh
      simp [escape_high hhigh] at h
    obtain ⟨y', rfl, rfl⟩ := insertEscape_peel htext hquote hslash hlow
    have hlt : lows y' < lows (c :: y') := by
      rw [lows_cons, if_pos hlow]
      omega
    obtain ⟨y₁, hsuffix, rfl⟩ : ∃ y₁, y₁ <:+ y' ∧ r = insertEscape y₁ ++ 34 :: rest := by
      rw [escape] at h
      repeat' split at h
      all_goals first
        | exact unicodeEscape_insertEscape h
        | exact ⟨y', List.suffix_refl _, (Prod.mk.inj (Option.some.inj h)).2.symm⟩
        | simp at h
    exact .inr (.inr ⟨y₁, hsuffix.trans (List.suffix_cons ..),
      Nat.lt_of_le_of_lt (lows_le_of_suffix hsuffix) hlt, rfl⟩)

/-- Bytes that are read as the runes of their numbers. -/
def Clean (y : GoString) : Prop := ∀ c ∈ y, 32 ≤ c ∧ c ≠ 92

/-- What the reader makes of each byte of a string without backslashes. -/
def runesOf (y : GoString) : GoString := y.flatMap fun c => encodeRune c.toNat

theorem lows_runesOf (y : GoString) : lows (runesOf y) = lows y := by
  induction y with
  | nil => rfl
  | cons c y ih =>
    rw [runesOf, List.flatMap_cons, lows_append, lows_encodeRune, ← runesOf, ih,
      ← lows_append, List.singleton_append]

/-- The three ends of reading an escaped string: at its quote, after fewer ASCII bytes than
the string has, or not before the text behind the quote. -/
def ReadsTo (y rest w r : GoString) : Prop :=
  (Clean y ∧ w = runesOf y ∧ r = rest) ∨ lows w < lows y ∨
    ∃ y₀ w₀ w' n', y = y₀ ++ [92] ∧ w = w₀ ++ w' ∧ readString n' rest = some (w', r)

/-- A byte that is read as its rune, in front of a string. -/
theorem ReadsTo.cons (h : ReadsTo y rest w r) (hlow : 32 ≤ c) (hslash : c ≠ 92) :
    ReadsTo (c :: y) rest (encodeRune c.toNat ++ w) r := by
  rcases h with ⟨hclean, rfl, rfl⟩ | hfewer | ⟨y₀, w₀, w', n', rfl, rfl, hread⟩
  · exact .inl ⟨List.forall_mem_cons.mpr ⟨⟨hlow, hslash⟩, hclean⟩, rfl, rfl⟩
  · right; left
    rw [← List.singleton_append, lows_append, lows_append, lows_encodeRune]
    omega
  · exact .inr (.inr ⟨c :: y₀, encodeRune c.toNat ++ w₀, w', n', rfl,
      (List.append_assoc ..).symm, hread⟩)

/-- A backslash that takes further ASCII bytes with it, and stands for one rune. -/
theorem ReadsTo.escaped {y' : GoString} (h : ReadsTo y' rest w r) (ht : IsRune t)
    (hsuffix : y' <:+ y) (hlt : lows y' < lows y) : ReadsTo (92 :: y) rest (t ++ w) r := by
  have hone := IsRune.lows_le ht
  have hslash : lows (92 :: y) = lows y + 1 := lows_cons 92 y
  rcases h with ⟨-, rfl, rfl⟩ | hfewer | ⟨y₀, w₀, w', n', rfl, rfl, hread⟩
  · right; left
    rw [lows_append, lows_runesOf]
    omega
  · right; left
    rw [lows_append]
    omega
  · obtain ⟨y₁, rfl⟩ := hsuffix
    exact .inr (.inr ⟨92 :: (y₁ ++ y₀), t ++ w₀, w', n', by simp, (List.append_assoc ..).symm,
      hread⟩)

/-- Bytes other than quotes and backslashes are read one at a time. -/
theorem readChar_insertEscape (hquote : c ≠ 34) (hslash : c ≠ 92)
    (h : readChar (insertEscape (c :: y) ++ 34 :: rest) = some (t, r)) :
    32 ≤ c ∧ t = encodeRune c.toNat ∧ r = insertEscape y ++ 34 :: rest := by
  have hrune := isRune_encodeRune c.toNat
  have hlen := hrune.runeLen_append (insertEscape y ++ 34 :: rest)
  obtain ⟨a, more, htext, hhead⟩ : ∃ a more, encodeRune c.toNat = a :: more ∧
      (a = c ∨ 128 ≤ a ∧ 128 ≤ c) := by
    by_cases hlow : c < 128
    · exact ⟨c, [], encodeRune_low hlow, .inl rfl⟩
    · obtain ⟨a, b, htext, ha, -⟩ := encodeRune_high hlow
      exact ⟨a, [b], htext, .inr ⟨ha, UInt8.not_lt.mp hlow⟩⟩
  have hne : a ≠ 92 := by
    rintro rfl
    rcases hhead with rfl | hhigh
    · exact hslash rfl
    · exact absurd hhigh.1 (by decide)
  rw [insertEscape_cons hquote, List.append_assoc] at h
  rw [htext] at h hlen ⊢
  rw [List.cons_append, readChar, if_neg hne] at h
  split at h
  · simp at h
  · next hcontrol =>
    rw [← List.cons_append, hlen, if_neg (by simp), List.take_left, List.drop_left] at h
    obtain ⟨rfl, rfl⟩ := Prod.mk.inj (Option.some.inj h)
    refine ⟨?_, rfl, rfl⟩
    rcases hhead with rfl | hhigh
    · exact UInt8.not_lt.mp hcontrol
    · exact UInt8.le_trans (by decide) hhigh.2

theorem readString_closed (h : readString n (34 :: t) = some (w, r)) : w = [] := by
  cases n with
  | zero => simp [readString] at h
  | succ n =>
    rw [readString, expect_self] at h
    exact (Prod.mk.inj (Option.some.inj h)).1.symm

/-- How an escaped string is read with its quote and the text behind it. -/
theorem readString_insertEscape (h : readString n (insertEscape y ++ 34 :: rest) = some (w, r)) :
    ReadsTo y rest w r := by
  induction n generalizing y w with
  | zero => simp [readString] at h
  | succ n ih =>
    cases y with
    | nil =>
      rw [insertEscape_nil, List.nil_append, readString, expect_self] at h
      obtain ⟨rfl, rfl⟩ := Prod.mk.inj (Option.some.inj h)
      exact .inl ⟨by simp [Clean], rfl, rfl⟩
    | cons c y =>
      have hopen : expect 34 (insertEscape (c :: y) ++ 34 :: rest) = none := by
        rw [Option.eq_none_iff_forall_ne_some]
        intro s hs
        exact insertEscape_ne_quote c y (expect_some hs)
      rw [readString, hopen] at h
      simp only [Option.bind_eq_bind, Option.bind_eq_some_iff, Option.some.injEq,
        Prod.mk.injEq] at h
      obtain ⟨⟨t, r'⟩, hchar, ⟨w', r''⟩, hstring, rfl, rfl⟩ := h
      dsimp only at hstring ⊢
      by_cases hquote : c = 34
      · subst hquote
        rw [insertEscape_quote] at hchar
        obtain ⟨rfl, rfl⟩ : [34] = t ∧ insertEscape y ++ 34 :: rest = r' :=
          Prod.mk.inj (Option.some.inj hchar)
        exact (ih hstring).cons (c := 34) (by decide) (by decide)
      by_cases hslash : c = 92
      · subst hslash
        have hescape : escape (insertEscape y ++ 34 :: rest) = some (t, r') := hchar
        rcases escape_insertEscape hescape with ⟨rfl, rfl⟩ | ⟨y', rfl, rfl, rfl⟩ |
          ⟨y', hsuffix, hlt, rfl⟩
        · exact .inr (.inr ⟨[], t, w', n, rfl, rfl, hstring⟩)
        · obtain rfl : w' = [] := readString_closed hstring
          right; left
          rw [lows_cons, lows_cons]
          simp [lows]
        · exact (ih hstring).escaped (escape_isRune hescape) hsuffix hlt
      · obtain ⟨hlow, rfl, rfl⟩ := readChar_insertEscape hquote hslash hchar
        exact (ih hstring).cons hlow hslash

/-- Strings that the file keeps: printable ASCII without backslashes. -/
def Writable (s : GoString) : Prop := ∀ c ∈ s, 32 ≤ c ∧ c < 128 ∧ c ≠ 92

instance decidableWritable (s : GoString) : Decidable (Writable s) :=
  inferInstanceAs (Decidable (∀ c ∈ s, _))

theorem length_runesOf (y : GoString) : (runesOf y).length + lows y = 2 * y.length := by
  induction y with
  | nil => rfl
  | cons c y ih =>
    have hsplit : runesOf (c :: y) = encodeRune c.toNat ++ runesOf y := List.flatMap_cons
    rw [hsplit, List.length_append, List.length_cons, lows_cons]
    by_cases hc : c < 128
    · rw [encodeRune_low hc, if_pos hc, List.length_singleton]
      omega
    · obtain ⟨a, b, hrune, -, -⟩ := encodeRune_high hc
      rw [hrune, if_neg hc]
      simp only [List.length_cons, List.length_nil]
      omega

/-- What follows an escaped string in the file: a comma and the next quote, or the bracket and
the new line behind it. -/
inductive Follows : GoString → Prop
  | entry (s : GoString) : Follows (44 :: 34 :: s)
  | last (s : GoString) : Follows (93 :: 10 :: s)

/-- A backslash in front of the quote of an entry is not read as a byte of the entry. -/
theorem Follows.ne_slash (hrest : Follows rest) (h : readString n rest = some (w, r))
    (y₀ w₀ : GoString) : y₀ ++ [92] ≠ w₀ ++ w := by
  cases hrest with
  | entry s =>
    obtain ⟨rfl, -⟩ := readString_comma h
    intro heq
    simpa using (List.append_inj' heq rfl).2
  | last s =>
    exfalso
    cases n with
    | zero => simp [readString] at h
    | succ n =>
      have hchar : readChar (93 :: 10 :: s) = some ([93], 10 :: s) := rfl
      have hcontrol : readString n (10 :: s) = none := by
        cases n with
        | zero => rfl
        | succ n => rfl
      simp [readString, expect_of_ne (show (93 : UInt8) ≠ 34 by decide), hchar, hcontrol] at h

/-- A string that is read back as it was written. -/
theorem ReadsTo.kept (h : ReadsTo y rest y r) (hrest : Follows rest) : Writable y ∧ r = rest := by
  rcases h with ⟨hclean, hrunes, rfl⟩ | hfewer | ⟨y₀, w₀, w', n', hy, hw, hread⟩
  · refine ⟨fun c hc => ?_, rfl⟩
    obtain ⟨hlow, hslash⟩ := hclean c hc
    have hlength := length_runesOf y
    rw [← hrunes] at hlength
    have hall : lows y = y.length := by omega
    exact ⟨hlow, by simpa using List.countP_eq_length.mp hall c hc, hslash⟩
  · omega
  · exact absurd (hy.symm.trans hw) (hrest.ne_slash hread y₀ w₀)

/-- Writable strings are read back in front of any text. -/
theorem readString_writable (h : Writable y) (hn : y.length < n) (rest : GoString) :
    readString n (insertEscape y ++ 34 :: rest) = some (y, rest) := by
  induction y generalizing n with
  | nil =>
    obtain ⟨n, rfl⟩ := Nat.exists_eq_succ_of_ne_zero (show n ≠ 0 by omega)
    rw [insertEscape_nil, List.nil_append, readString, expect_self]
  | cons c y ih =>
    obtain ⟨⟨hlow, hhigh, hslash⟩, htail⟩ := List.forall_mem_cons.mp h
    rw [List.length_cons] at hn
    obtain ⟨n, rfl⟩ := Nat.exists_eq_succ_of_ne_zero (show n ≠ 0 by omega)
    have hrest := ih htail (show y.length < n by omega)
    obtain ⟨a, s, htext, hquote, hchar⟩ : ∃ a s, insertEscape (c :: y) = a :: s ∧ a ≠ 34 ∧
        readChar (a :: (s ++ 34 :: rest)) = some ([c], insertEscape y ++ 34 :: rest) := by
      by_cases hc : c = 34
      · subst hc
        exact ⟨92, _, insertEscape_quote y, by decide, rfl⟩
      · refine ⟨c, insertEscape y, ?_, hc, ?_⟩
        · rw [insertEscape_cons hc, encodeRune_low hhigh]
          rfl
        · have hlead : leadLen c = 1 := by
            rw [leadLen, if_pos hhigh]
          have hlen : runeLen (c :: (insertEscape y ++ 34 :: rest)) = 1 :=
            (IsRune.one hlead).runeLen_append _
          rw [readChar, if_neg hslash, if_neg (not_lt_of_le_byte hlow), hlen]
          rfl
    rw [htext, List.cons_append, readString, expect_of_ne hquote]
    simp only [hchar, hrest, Option.bind_eq_bind, Option.bind_some]
    rfl

end Escapes

/-! ## The round trip -/

section RoundTrip

variable {n depth : ℕ} {s rest tail r : GoString} {list : List GoString}

/-- An entry with its quotes, in front of a text. -/
def entryText (s rest : GoString) : GoString := 34 :: (insertEscape s ++ 34 :: rest)

/-- The entries of the list, in front of a text. -/
def entriesText (rest : GoString) : List GoString → GoString
  | [] => rest
  | [s] => entryText s rest
  | s :: entries => entryText s (44 :: entriesText rest entries)

theorem entriesText_cons (hne : list ≠ []) (s rest : GoString) :
    entriesText rest (s :: list) = entryText s (44 :: entriesText rest list) := by
  obtain ⟨s', list, rfl⟩ := List.exists_cons_of_ne_nil hne
  rfl

theorem entriesText_append (rest tail : GoString) (list : List GoString) :
    entriesText (rest ++ tail) list = entriesText rest list ++ tail := by
  induction list with
  | nil => rfl
  | cons s list ih =>
    by_cases hne : list = []
    · subst hne
      simp [entriesText, entryText]
    · rw [entriesText_cons hne, entriesText_cons hne, ih]
      simp [entryText]

theorem length_le_entriesText (rest : GoString) (list : List GoString) :
    list.length ≤ (entriesText rest list).length := by
  induction list with
  | nil => exact Nat.zero_le _
  | cons s list ih =>
    by_cases hne : list = []
    · subst hne
      simp [entriesText, entryText]
    · rw [entriesText_cons hne, entryText]
      simp only [List.length_cons, List.length_append]
      omega

theorem writeEntries_writtenOver (previous bytes : GoString) (list : List GoString) :
    writeEntries (writtenOver previous bytes) list =
      writtenOver previous (bytes ++ entriesText [] list) := by
  induction list generalizing bytes with
  | nil => rw [writeEntries, entriesText, List.append_nil]
  | cons s list ih =>
    by_cases hne : list = []
    · subst hne
      rw [writeEntries, write_writtenOver]
      rfl
    · obtain ⟨s', list, rfl⟩ := List.exists_cons_of_ne_nil hne
      rw [writeEntries, write_writtenOver, ih, entriesText_cons hne]
      · simp [entryText, show str "\"" = [34] from rfl, show str "\"," = [34, 44] from rfl]
      · simp

/-- What the tool writes. -/
def scalingText (list : List GoString) : GoString :=
  91 :: 10 :: entryText booleanMap (44 :: entriesText [93, 10] list)

theorem writescaleDataList_eq (list : List GoString) (previous : GoString) :
    writescaleDataList list previous =
      91 :: 10 :: entryText booleanMap (44 ::
        entriesText (93 :: 10 :: previous.drop (scalingText list).length) list) := by
  have hhead : str "[\n" ++ str "\"\x7b\\\"false\\\":\\\"0\\\", \\\"true\\\":\\\"1\\\"\x7d\"," =
      91 :: 10 :: entryText booleanMap [44] := by decide
  have hstart : OsFile.mk previous 0 = writtenOver previous [] := rfl
  have htext : 91 :: 10 :: entryText booleanMap [44] ++ entriesText [] list ++ [93, 10] =
      scalingText list := by
    rw [scalingText, ← List.nil_append [93, 10], entriesText_append]
    simp [entryText]
  have htail := entriesText_append [93, 10] (previous.drop (scalingText list).length) list
  simp only [writescaleDataList, hstart, write_writtenOver, writeEntries_writtenOver,
    List.nil_append]
  rw [hhead, show str "]\n" = [93, 10] from rfl, htext]
  rw [List.cons_append, List.cons_append, List.nil_append] at htail
  rw [htail, writtenOver, scalingText]
  simp [entryText]

theorem length_lt_insertEscape (s rest : GoString) :
    s.length < (insertEscape s ++ 34 :: rest).length := by
  suffices hle : s.length ≤ (insertEscape s).length by
    rw [List.length_append, List.length_cons]
    omega
  induction s with
  | nil => exact Nat.le_refl 0
  | cons c s ih =>
    by_cases hc : c = 34
    · rw [hc, insertEscape_quote]
      simp only [List.length_cons]
      omega
    · have hpos := List.length_pos_of_ne_nil (isRune_encodeRune c.toNat).ne_nil
      rw [insertEscape_cons hc, List.length_append, List.length_cons]
      omega

/-- An item of the file that is not the last one. -/
theorem readItems_entry (h : Writable s) (rest : GoString) :
    readItems (parseValue depth) (n + 1) (entryText s (44 :: rest)) =
      (readItems (parseValue depth) n rest).map fun p => (.str s :: p.1, p.2) := by
  have hstring := readString_writable h (length_lt_insertEscape s (44 :: rest)) (44 :: rest)
  rw [readItems_value, entryText, skipSpace_of_head (show isSpace 34 = false from rfl),
    parseValue_quoted, hstring]
  simp only [Option.map_some, Option.bind_some, skipSpace_of_head (show isSpace 44 = false from rfl),
    expect_self]

theorem readItems_last (h : Writable s) (rest : GoString) :
    readItems (parseValue depth) (n + 1) (entryText s (93 :: rest)) = some ([.str s], rest) := by
  have hstring := readString_writable h (length_lt_insertEscape s (93 :: rest)) (93 :: rest)
  rw [readItems_value, entryText, skipSpace_of_head (show isSpace 34 = false from rfl),
    parseValue_quoted, hstring]
  simp only [Option.map_some, Option.bind_some, skipSpace_of_head (show isSpace 93 = false from rfl),
    expect_of_ne (show (93 : UInt8) ≠ 44 by decide), expect_self]

/-- The strings of an array of strings. -/
def stringItem : Json → Option GoString
  | .str t => some t
  | .null => some []
  | _ => none

theorem readItems_entries (h : ∀ s ∈ list, Writable s) (hne : list ≠ []) (hn : list.length ≤ n) :
    readItems (parseValue depth) n (entriesText (93 :: tail) list) =
      some (list.map .str, tail) := by
  induction list generalizing n with
  | nil => exact absurd rfl hne
  | cons s list ih =>
    obtain ⟨hs, htail⟩ := List.forall_mem_cons.mp h
    rw [List.length_cons] at hn
    obtain ⟨n, rfl⟩ := Nat.exists_eq_succ_of_ne_zero (show n ≠ 0 by omega)
    by_cases hlast : list = []
    · subst hlast
      exact readItems_last hs tail
    · rw [entriesText_cons hlast, readItems_entry hs, ih htail hlast (by omega)]
      rfl

/-- An item that is read as the string it was written for. -/
theorem parseValue_entry {j : Json} (hrest : Follows rest)
    (h : parseValue depth (skipSpace (entryText s rest)) = some (j, r))
    (hj : stringItem j = some s) : Writable s ∧ r = rest := by
  rw [entryText, skipSpace_of_head (show isSpace 34 = false from rfl), parseValue_quoted,
    Option.map_eq_some_iff] at h
  obtain ⟨⟨w, r'⟩, hstring, heq⟩ := h
  obtain ⟨rfl, rfl⟩ := Prod.mk.inj heq
  obtain rfl : w = s := Option.some.inj hj
  exact (readString_insertEscape hstring).kept hrest

theorem follows_entriesText (hne : list ≠ []) (rest : GoString) :
    Follows (44 :: entriesText rest list) := by
  obtain ⟨s, list, rfl⟩ := List.exists_cons_of_ne_nil hne
  by_cases hlast : list = []
  · subst hlast
    exact .entry _
  · rw [entriesText_cons hlast]
    exact .entry _

theorem mapM_stringItem_cons {items : List Json}
    (h : items.mapM stringItem = some (s :: list)) :
    ∃ j items', items = j :: items' ∧ stringItem j = some s ∧
      items'.mapM stringItem = some list := by
  rw [Traversals.mapM_eq_some_iff] at h
  obtain ⟨j, items', hj, hitems, rfl⟩ := List.forall₂_cons_right_iff.mp h
  exact ⟨j, items', rfl, hj, Traversals.mapM_eq_some_iff.mpr hitems⟩

/-- Entries that are read back as they were written. -/
theorem entries_writable {items : List Json} (hne : list ≠ [])
    (h : readItems (parseValue depth) n (entriesText (93 :: 10 :: tail) list) = some (items, r))
    (hitems : items.mapM stringItem = some list) :
    (∀ s ∈ list, Writable s) ∧ r = 10 :: tail := by
  induction list generalizing n items with
  | nil => exact absurd rfl hne
  | cons s list ih =>
    obtain ⟨j, items, rfl, hj, hitems⟩ := mapM_stringItem_cons hitems
    obtain ⟨m, s₁, hvalue, hnext⟩ := readItems_inversion h
    by_cases hlast : list = []
    · subst hlast
      obtain ⟨hs, rfl⟩ := parseValue_entry (.last tail) hvalue hj
      rcases hnext with ⟨-, hend⟩ | ⟨s₂, -, hcomma, -⟩
      · exact ⟨by simpa using hs, (List.cons.inj (expect_some hend)).2.symm⟩
      · simp [skipSpace_of_head (show isSpace 93 = false from rfl), expect] at hcomma
    · rw [entriesText_cons hlast] at hvalue
      obtain ⟨hs, rfl⟩ := parseValue_entry (follows_entriesText hlast _) hvalue hj
      rcases hnext with ⟨-, hend⟩ | ⟨s₂, -, hcomma, hrest⟩
      · simp [skipSpace_of_head (show isSpace 44 = false from rfl), expect] at hend
      · obtain rfl := (List.cons.inj (expect_some hcomma)).2
        obtain ⟨htail, rfl⟩ := ih hlast hrest hitems
        exact ⟨List.forall_mem_cons.mpr ⟨hs, htail⟩, rfl⟩

theorem writable_booleanMap : Writable booleanMap := by decide +kernel

/-- The items behind the boolean map decide what the file is read as. -/
theorem parseText_scaling (list : List GoString) (previous : GoString) :
    ∃ depth m, list.length ≤ m ∧ parseText (writescaleDataList list previous) =
      (readItems (parseValue depth) m
          (entriesText (93 :: 10 :: previous.drop (scalingText list).length) list)).bind fun p =>
        if skipSpace p.2 = [] then some (.arr (.str booleanMap :: p.1)) else none := by
  rw [writescaleDataList_eq]
  generalize previous.drop (scalingText list).length = tail
  have hlength := length_le_entriesText (93 :: 10 :: tail) list
  generalize entriesText (93 :: 10 :: tail) list = body at hlength ⊢
  have hgap : ∀ c ∈ ([10] : GoString), isSpace c = true := by simp [isSpace]
  have hopen : expect 93 (skipSpace (10 :: entryText booleanMap (44 :: body))) = none := rfl
  obtain ⟨depth, hdepth⟩ : ∃ depth, maxNestingDepth = depth + 1 := ⟨9999, rfl⟩
  have hitems : ∀ n text, readItems (parseValue depth) n (10 :: text) =
      readItems (parseValue depth) n text := fun n text => readItems_gap hgap text
  refine ⟨depth, (entryText booleanMap (44 :: body)).length, ?_, ?_⟩
  · rw [entryText]
    simp only [List.length_cons, List.length_append]
    omega
  · rw [parseText, parseFirst, skipSpace_of_head (show isSpace 91 = false from rfl), hdepth,
      parseValue_bracket, readArray, hopen]
    dsimp only
    rw [List.length_cons, hitems, readItems_entry writable_booleanMap]
    cases readItems (parseValue depth) _ body with
    | none => rfl
    | some p => rfl

theorem unmarshalStrings_arr {items : List Json} {s : GoString}
    (h : parseText s = some (.arr items)) : unmarshalStrings s = items.mapM stringItem := by
  rw [unmarshalStrings, h]
  apply congrArg (items.mapM ·)
  funext j
  cases j <;> rfl

theorem readItems_bracket (rest : GoString) :
    readItems (parseValue depth) n (93 :: rest) = none := by
  cases n with
  | zero => rfl
  | succ n =>
    have hvalue : parseValue depth (93 :: rest) = none := by
      cases depth with
      | zero => rfl
      | succ depth => rfl
    rw [readItems_value, skipSpace_of_head (show isSpace 93 = false from rfl), hvalue]
    rfl

theorem skipSpace_eq_nil (s : GoString) : skipSpace s = [] ↔ ∀ c ∈ s, isSpace c = true :=
  List.dropWhile_eq_nil_iff

/-- The feeder reads the list if and only if it is not empty, its entries are writable, and
only white space is left of what the file held behind it. -/
theorem readscalingDataList_iff (list : List GoString) (previous : GoString) :
    readscalingDataList (writescaleDataList list previous) = booleanMap :: list ↔
      list ≠ [] ∧ (∀ s ∈ list, Writable s) ∧
        ∀ c ∈ previous.drop (scalingText list).length, isSpace c = true := by
  obtain ⟨depth, m, hm, hparse⟩ := parseText_scaling list previous
  generalize previous.drop (scalingText list).length = tail at hparse ⊢
  rw [← skipSpace_eq_nil]
  constructor
  · intro h
    have hstrings : unmarshalStrings (writescaleDataList list previous) =
        some (booleanMap :: list) := by
      cases hread : unmarshalStrings (writescaleDataList list previous) with
      | none => simp [readscalingDataList, hread] at h
      | some L => exact congrArg some (by simpa [readscalingDataList, hread] using h)
    cases hitems : readItems (parseValue depth) m (entriesText (93 :: 10 :: tail) list) with
    | none =>
      rw [hitems, Option.bind_none] at hparse
      simp [unmarshalStrings, hparse] at hstrings
    | some p =>
      obtain ⟨items, r⟩ := p
      rw [hitems, Option.bind_some] at hparse
      split at hparse
      · next hend =>
        rw [unmarshalStrings_arr hparse] at hstrings
        obtain ⟨j, items', heq, -, hlist⟩ := mapM_stringItem_cons hstrings
        obtain ⟨-, rfl⟩ := List.cons.inj heq
        by_cases hne : list = []
        · subst hne
          simp [entriesText, readItems_bracket] at hitems
        · obtain ⟨hwritable, rfl⟩ := entries_writable hne hitems hlist
          exact ⟨hne, hwritable, hend⟩
      · simp [unmarshalStrings, hparse] at hstrings
  · rintro ⟨hne, hlist, htail⟩
    rw [readItems_entries hlist hne hm, Option.bind_some, if_pos (by exact htail)] at hparse
    have hread : (list.map Json.str).mapM stringItem = some list :=
      Traversals.mapM_map_self fun _ => rfl
    rw [readscalingDataList, unmarshalStrings_arr hparse, List.mapM_cons, hread]
    rfl

/-- The file is read as the list that was written if and only if the list is not empty, its
entries are printable ASCII without backslashes, and only white space is left of what the
file held behind it. -/
theorem scaling_file_round_trip_iff (scaleDataList : List GoString) (previous : GoString) :
    (readscalingDataList (writescaleDataList scaleDataList previous) =
        booleanMap :: scaleDataList ∧
      ∀ k, scalingData (readscalingDataList (writescaleDataList scaleDataList previous)) (k + 2) =
        scaleDataList[k]?) ↔
      scaleDataList ≠ [] ∧ (∀ s ∈ scaleDataList, Writable s) ∧
        ∀ c ∈ previous.drop (scalingText scaleDataList).length, isSpace c = true := by
  rw [← readscalingDataList_iff]
  constructor
  · exact And.left
  · intro h
    refine ⟨h, fun k => ?_⟩
    rw [h]
    rfl

/-- Without entries the comma behind the boolean map stays, and the feeder reads nothing. -/
theorem empty_list_unreadable :
    ¬ ∀ (scaleDataList : List GoString) (previous : GoString),
      readscalingDataList (writescaleDataList scaleDataList previous) =
          booleanMap :: scaleDataList ∧
        ∀ k, scalingData (readscalingDataList (writescaleDataList scaleDataList previous))
          (k + 2) = scaleDataList[k]? := by
  intro h
  exact ((readscalingDataList_iff [] []).mp (h [] []).1).1 rfl

end RoundTrip

end VissServer.Feeder
