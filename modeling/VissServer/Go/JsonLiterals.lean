import VissServer.Go.JsonSplice

/-!
Strings that are put into a JSON text between quotes without an escape. Reading them back
gives the same string only where every byte stands for itself; other strings end early, get
shorter, or swallow the quote behind them.
-/
namespace VissServer.Go

/-- Each byte of the string stands for itself between quotes. -/
structure IsLiteral (s : GoString) : Prop where
  valid : ValidString s
  bytes : ∀ c ∈ s, 32 ≤ c ∧ c ≠ 34 ∧ c ≠ 92

theorem isLiteral_nil : IsLiteral [] := ⟨.nil, by simp⟩

theorem isLiteral_of_isPlain {s : GoString} (h : ∀ c ∈ s, isPlain c = true) : IsLiteral s where
  valid := validString_of_isPlain h
  bytes c hc := by
    have hplain := h c hc
    simp only [isPlain, Bool.and_eq_true, decide_eq_true_eq] at hplain
    exact ⟨hplain.1.1.1, hplain.1.2, hplain.2⟩

theorem isLiteral_of_all {s : GoString} (h : s.all isPlain = true) : IsLiteral s :=
  isLiteral_of_isPlain (List.all_eq_true.mp h)

theorem secondOk_le {a b : UInt8} (h : secondOk a b = true) : 128 ≤ b := by
  have hle : ∀ low : UInt8, 128 ≤ low → ∀ high : UInt8,
      (decide (low ≤ b) && decide (b ≤ high)) = true → 128 ≤ b := by
    intro low hlow high hb
    simp only [Bool.and_eq_true, decide_eq_true_eq] at hb
    have hb := hb.1
    rw [UInt8.le_iff_toNat_le] at hlow hb ⊢
    omega
  unfold secondOk at h
  split at h
  · exact hle 0xA0 (by decide) _ h
  · split at h
    · exact hle 0x80 (by decide) _ h
    · split at h
      · exact hle 0x90 (by decide) _ h
      · split at h
        · exact hle 0x80 (by decide) _ h
        · exact hle 0x80 (by decide) _ h

/-- A rune is one ASCII byte or has none. -/
theorem IsRune.cases_head {seg : GoString} (h : IsRune seg) :
    (∃ a, a < 128 ∧ seg = [a]) ∨ ∀ c ∈ seg, 128 ≤ c := by
  have htail : ∀ {c : UInt8}, isTail c = true → 128 ≤ c := by
    intro c hc
    simpa using (Bool.and_eq_true_iff.mp hc).1
  cases h with
  | one ha => exact .inl ⟨_, lt_of_leadLen ha, rfl⟩
  | @two a b ha hb =>
    have hlead : 128 ≤ a := lead_of_leadLen (by omega)
    simp [hlead, secondOk_le hb]
  | @three a b c ha hb hc =>
    have hlead : 128 ≤ a := lead_of_leadLen (by omega)
    simp [hlead, secondOk_le hb, htail hc]
  | @four a b c d ha hb hc hd =>
    have hlead : 128 ≤ a := lead_of_leadLen (by omega)
    simp [hlead, secondOk_le hb, htail hc, htail hd]

theorem not_lt_of_le_byte {a b : UInt8} (h : a ≤ b) : ¬ b < a := by
  rw [UInt8.lt_iff_toNat_lt]
  exact Nat.not_lt.mpr (UInt8.le_iff_toNat_le.mp h)

/-- Behind an ASCII byte a valid string goes on with a valid string. -/
theorem ValidString.tail {c : UInt8} {s : GoString} (h : ValidString (c :: s)) (hc : c < 128) :
    ValidString s := by
  generalize hwhole : c :: s = whole at h
  cases h with
  | nil => simp at hwhole
  | @cons seg t hseg ht =>
    rcases hseg.cases_head with ⟨a, -, rfl⟩ | hhigh
    · rw [(List.cons.inj hwhole).2]
      exact ht
    · obtain ⟨a, more, rfl⟩ := List.exists_cons_of_ne_nil hseg.ne_nil
      rw [List.cons_append] at hwhole
      obtain ⟨rfl, -⟩ := List.cons.inj hwhole
      exact absurd hc (not_lt_of_le_byte (hhigh _ (List.mem_cons_self ..)))

/-- An ASCII byte that is read in front of a quote belongs to the string before it. -/
theorem ValidString.peel {s rest t : GoString} {c : UInt8} (hs : ValidString s)
    (h : s ++ 34 :: rest = c :: t) (hquote : c ≠ 34) (hc : c < 128) :
    ∃ s', s = c :: s' ∧ ValidString s' ∧ t = s' ++ 34 :: rest := by
  cases s with
  | nil => exact absurd (List.cons.inj h).1.symm hquote
  | cons d s =>
    rw [List.cons_append] at h
    obtain ⟨rfl, rfl⟩ := List.cons.inj h
    exact ⟨s, rfl, hs.tail hc, rfl⟩

theorem hexVal_some {c : UInt8} {n : ℕ} (h : hexVal c = some n) : c ≠ 34 ∧ c < 128 := by
  have hrange : 48 ≤ c.toNat ∧ c.toNat ≤ 102 := by
    unfold hexVal at h
    simp only [UInt8.le_iff_toNat_le] at h
    have h48 : (48 : UInt8).toNat = 48 := rfl
    have h57 : (57 : UInt8).toNat = 57 := rfl
    have h65 : (65 : UInt8).toNat = 65 := rfl
    have h70 : (70 : UInt8).toNat = 70 := rfl
    have h97 : (97 : UInt8).toNat = 97 := rfl
    have h102 : (102 : UInt8).toNat = 102 := rfl
    split at h
    · omega
    · split at h
      · omega
      · split at h
        · omega
        · simp at h
  constructor
  · rintro rfl
    exact absurd hrange.1 (by decide)
  · rw [UInt8.lt_iff_toNat_lt]
    exact Nat.lt_of_le_of_lt hrange.2 (by decide)

/-- The four digits that hex4 reads in front of a quote. -/
theorem hex4_peel {s rest r : GoString} {n : ℕ} (hs : ValidString s)
    (h : hex4 (s ++ 34 :: rest) = some (n, r)) :
    ∃ s', ValidString s' ∧ r = s' ++ 34 :: rest ∧ s'.length + 4 = s.length := by
  generalize htext : s ++ 34 :: rest = text at h
  unfold hex4 at h
  split at h
  · next a b c d t =>
    simp only [Option.bind_eq_bind, Option.bind_eq_some_iff, Option.some.injEq,
      Prod.mk.injEq] at h
    obtain ⟨w, ha, x, hb, y, hc, z, hd, -, rfl⟩ := h
    obtain ⟨s₁, rfl, hs₁, h₁⟩ := hs.peel htext (hexVal_some ha).1 (hexVal_some ha).2
    obtain ⟨s₂, rfl, hs₂, h₂⟩ := hs₁.peel h₁.symm (hexVal_some hb).1 (hexVal_some hb).2
    obtain ⟨s₃, rfl, hs₃, h₃⟩ := hs₂.peel h₂.symm (hexVal_some hc).1 (hexVal_some hc).2
    obtain ⟨s₄, rfl, hs₄, h₄⟩ := hs₃.peel h₃.symm (hexVal_some hd).1 (hexVal_some hd).2
    exact ⟨s₄, hs₄, h₄, rfl⟩
  · simp at h

theorem lowSurrogate_peel {s rest r : GoString} {n : ℕ} (hs : ValidString s)
    (h : lowSurrogate (s ++ 34 :: rest) = some (n, r)) :
    ∃ s', ValidString s' ∧ r = s' ++ 34 :: rest ∧ s'.length + 6 = s.length := by
  simp only [lowSurrogate, Option.bind_eq_bind, Option.bind_eq_some_iff] at h
  obtain ⟨t, hslash, t', hu, ⟨n', r'⟩, hhex, h⟩ := h
  split at h
  · obtain ⟨-, rfl⟩ := Prod.mk.inj (Option.some.inj h)
    obtain ⟨s₁, rfl, hs₁, rfl⟩ := hs.peel (expect_some hslash) (by decide) (by decide)
    obtain ⟨s₂, rfl, hs₂, rfl⟩ := hs₁.peel (expect_some hu) (by decide) (by decide)
    obtain ⟨s₃, hs₃, rfl, hlength⟩ := hex4_peel hs₂ hhex
    refine ⟨s₃, hs₃, rfl, ?_⟩
    rw [List.length_cons, List.length_cons]
    omega
  · simp at h

theorem length_encodeRune_le (n : ℕ) : (encodeRune n).length ≤ 4 := by
  unfold encodeRune
  split_ifs <;> simp [replacementChar]

theorem unicodeEscape_peel {s rest t r : GoString} (hs : ValidString s)
    (h : unicodeEscape (s ++ 34 :: rest) = some (t, r)) :
    ∃ s', ValidString s' ∧ r = s' ++ 34 :: rest ∧ t.length + s'.length ≤ s.length := by
  simp only [unicodeEscape, Option.bind_eq_bind, Option.bind_eq_some_iff] at h
  obtain ⟨⟨n, r'⟩, hhex, h⟩ := h
  obtain ⟨s₁, hs₁, rfl, hlength⟩ := hex4_peel hs hhex
  dsimp only at h
  have hreplacement : replacementChar.length = 3 := rfl
  split at h
  · split at h
    · next low r₂ hlow =>
      obtain ⟨rfl, rfl⟩ := Prod.mk.inj (Option.some.inj h)
      obtain ⟨s₂, hs₂, rfl, hlength'⟩ := lowSurrogate_peel hs₁ hlow
      have hle := length_encodeRune_le (0x10000 + 1024 * (n - 0xD800) + (low - 0xDC00))
      exact ⟨s₂, hs₂, rfl, by omega⟩
    · obtain ⟨rfl, rfl⟩ := Prod.mk.inj (Option.some.inj h)
      exact ⟨s₁, hs₁, rfl, by omega⟩
  · obtain ⟨rfl, rfl⟩ := Prod.mk.inj (Option.some.inj h)
    have hle := length_encodeRune_le n
    exact ⟨s₁, hs₁, rfl, by omega⟩

/-- An escape in front of a quote: it stays in front of it, or it is the escape of the quote. -/
theorem escape_peel {s rest t r : GoString} (hs : ValidString s)
    (h : escape (s ++ 34 :: rest) = some (t, r)) :
    r = rest ∨ ∃ s', ValidString s' ∧ r = s' ++ 34 :: rest ∧ t.length + s'.length ≤ s.length := by
  cases s with
  | nil =>
    rw [List.nil_append, escape, if_pos (.inl rfl)] at h
    exact .inl (Prod.mk.inj (Option.some.inj h)).2.symm
  | cons c s =>
    have hsimple : ∀ {x : UInt8}, c < 128 → some ([x], s ++ 34 :: rest) = some (t, r) →
        ∃ s', ValidString s' ∧ r = s' ++ 34 :: rest ∧
          t.length + s'.length ≤ (c :: s).length := by
      intro x hc heq
      obtain ⟨rfl, rfl⟩ := Prod.mk.inj (Option.some.inj heq)
      refine ⟨s, hs.tail hc, rfl, ?_⟩
      rw [List.length_singleton, List.length_cons]
      omega
    rw [List.cons_append, escape] at h
    right
    split at h
    · next hc =>
      refine hsimple ?_ h
      rcases hc with rfl | rfl | rfl <;> decide
    · split at h
      · next hc => exact hsimple (hc ▸ by decide) h
      · split at h
        · next hc => exact hsimple (hc ▸ by decide) h
        · split at h
          · next hc => exact hsimple (hc ▸ by decide) h
          · split at h
            · next hc => exact hsimple (hc ▸ by decide) h
            · split at h
              · next hc => exact hsimple (hc ▸ by decide) h
              · split at h
                · next hc =>
                  subst hc
                  obtain ⟨s', hs', rfl, hlength⟩ := unicodeEscape_peel (hs.tail (by decide)) h
                  exact ⟨s', hs', rfl, by rw [List.length_cons]; omega⟩
                · simp at h

/-- A character in front of a quote: it stands for itself, it gets shorter, or it is the escape
of the quote. -/
theorem readChar_peel {seg s rest t r : GoString} (hseg : IsRune seg) (hs : ValidString s)
    (hquote : expect 34 (seg ++ (s ++ 34 :: rest)) = none)
    (h : readChar (seg ++ (s ++ 34 :: rest)) = some (t, r)) :
    (t = seg ∧ r = s ++ 34 :: rest ∧ ∀ c ∈ seg, 32 ≤ c ∧ c ≠ 34 ∧ c ≠ 92) ∨ r = rest ∨
      ∃ s', ValidString s' ∧ r = s' ++ 34 :: rest ∧
        t.length + s'.length < seg.length + s.length := by
  obtain ⟨a, more, rfl⟩ := List.exists_cons_of_ne_nil hseg.ne_nil
  have hlen := hseg.runeLen_append (s ++ 34 :: rest)
  rw [List.cons_append] at h hquote
  by_cases hslash : a = 92
  · subst hslash
    obtain rfl : more = [] := by
      rcases hseg.cases_head with ⟨b, -, hone⟩ | hhigh
      · exact (List.cons.inj hone).2
      · exact absurd (hhigh 92 (List.mem_cons_self ..)) (by decide)
    rw [List.nil_append, readChar, if_pos rfl] at h
    rcases escape_peel hs h with heq | ⟨s', hs', heq, hlength⟩
    · exact .inr (.inl heq)
    · refine .inr (.inr ⟨s', hs', heq, ?_⟩)
      rw [List.length_singleton]
      omega
  · have hcontrol : ¬ a < 32 := by
      intro hcontrol
      rw [readChar, if_neg hslash, if_pos hcontrol] at h
      simp at h
    have hlow : 32 ≤ a := by
      rw [UInt8.lt_iff_toNat_lt] at hcontrol
      exact UInt8.le_iff_toNat_le.mpr (Nat.not_lt.mp hcontrol)
    have hne : a ≠ 34 := by
      rintro rfl
      rw [expect_self] at hquote
      simp at hquote
    rw [readChar, if_neg hslash, if_neg hcontrol, ← List.cons_append, hlen, if_neg (by simp),
      List.take_left, List.drop_left] at h
    obtain ⟨rfl, rfl⟩ := Prod.mk.inj (Option.some.inj h)
    refine .inl ⟨rfl, rfl, fun c hc => ?_⟩
    rcases hseg.cases_head with ⟨b, -, hone⟩ | hhigh
    · rw [hone, List.mem_singleton] at hc
      rw [hc, ← (List.cons.inj hone).1]
      exact ⟨hlow, hne, hslash⟩
    · have hc' : (128 : UInt8) ≤ c := hhigh c hc
      refine ⟨?_, ?_, ?_⟩
      · rw [UInt8.le_iff_toNat_le] at hc' ⊢
        exact Nat.le_trans (by decide) hc'
      · rintro rfl
        exact absurd hc' (by decide)
      · rintro rfl
        exact absurd hc' (by decide)

/-- Reading a string that was put between quotes: it is a literal, or it is read as a shorter
string, or the quote behind it is read as a part of the string. -/
theorem readString_split {n : ℕ} {s rest w r : GoString} (hs : ValidString s)
    (h : readString n (s ++ 34 :: rest) = some (w, r)) :
    (IsLiteral s ∧ w = s ∧ r = rest) ∨ w.length < s.length ∨
      ∃ n' w', readString n' rest = some (w', r) := by
  induction n generalizing s w with
  | zero => simp [readString] at h
  | succ n ih =>
    cases hs with
    | nil =>
      rw [List.nil_append, readString, expect_self] at h
      obtain ⟨rfl, rfl⟩ := Prod.mk.inj (Option.some.inj h)
      exact .inl ⟨isLiteral_nil, rfl, rfl⟩
    | @cons seg s hseg hs =>
      have hpos := List.length_pos_of_ne_nil hseg.ne_nil
      rw [List.append_assoc, readString] at h
      cases hexpect : expect 34 (seg ++ (s ++ 34 :: rest)) with
      | some r' =>
        rw [hexpect] at h
        obtain ⟨rfl, -⟩ := Prod.mk.inj (Option.some.inj h)
        right; left
        rw [List.length_append, List.length_nil]
        omega
      | none =>
        rw [hexpect] at h
        simp only [Option.bind_eq_bind, Option.bind_eq_some_iff, Option.some.injEq,
          Prod.mk.injEq] at h
        obtain ⟨⟨t, r'⟩, hchar, ⟨w', r''⟩, hstring, rfl, rfl⟩ := h
        dsimp only at hstring ⊢
        rcases readChar_peel hseg hs hexpect hchar with ⟨rfl, rfl, hbytes⟩ | rfl | ⟨s', hs', rfl, hlength⟩
        · rcases ih hs hstring with ⟨hlit, rfl, rfl⟩ | hshort | hswallow
          · refine .inl ⟨⟨.cons hseg hs, fun c hc => ?_⟩, rfl, rfl⟩
            rcases List.mem_append.mp hc with hc | hc
            · exact hbytes c hc
            · exact hlit.bytes c hc
          · right; left
            rw [List.length_append, List.length_append]
            omega
          · exact .inr (.inr hswallow)
        · exact .inr (.inr ⟨n, w', hstring⟩)
        · rcases ih hs' hstring with ⟨-, rfl, rfl⟩ | hshort | hswallow
          · right; left
            rw [List.length_append, List.length_append]
            exact hlength
          · right; left
            rw [List.length_append, List.length_append]
            omega
          · exact .inr (.inr hswallow)

/-- Reading a literal that was put between quotes. -/
theorem readString_literal {s : GoString} (h : IsLiteral s) {n : ℕ} (hn : s.length < n)
    (rest : GoString) : readString n (s ++ 34 :: rest) = some (s, rest) := by
  obtain ⟨hvalid, hbytes⟩ := h
  induction hvalid generalizing n with
  | nil =>
    obtain ⟨n, rfl⟩ := Nat.exists_eq_succ_of_ne_zero (show n ≠ 0 by omega)
    rw [List.nil_append, readString, expect_self]
  | @cons seg s hseg hs ih =>
    have hpos := List.length_pos_of_ne_nil hseg.ne_nil
    rw [List.length_append] at hn
    obtain ⟨n, rfl⟩ := Nat.exists_eq_succ_of_ne_zero (show n ≠ 0 by omega)
    have hrest := @ih n (by omega) fun c hc => hbytes c (List.mem_append_right _ hc)
    obtain ⟨a, more, rfl⟩ := List.exists_cons_of_ne_nil hseg.ne_nil
    obtain ⟨hlow, hquote, hslash⟩ := hbytes a (by simp)
    have hlen := hseg.runeLen_append (s ++ 34 :: rest)
    have hchar : readChar (a :: (more ++ (s ++ 34 :: rest))) =
        some (a :: more, s ++ 34 :: rest) := by
      rw [readChar, if_neg hslash, if_neg (not_lt_of_le_byte hlow), ← List.cons_append, hlen,
        if_neg (by simp), List.take_left, List.drop_left]
    rw [List.append_assoc, List.cons_append, readString, expect_of_ne hquote]
    simp only [hchar, hrest, Option.bind_eq_bind, Option.bind_some]

/-- A member whose name and value are put into a text as they are, in front of the rest. -/
def memberText (k v rest : GoString) : GoString := 34 :: (k ++ 34 :: 58 :: 34 :: (v ++ 34 :: rest))

section Members

variable {depth n : ℕ} {k v rest : GoString} {value : GoString → Option (Json × GoString)}

theorem parseValue_quoted (depth : ℕ) (body : GoString) :
    parseValue depth (34 :: body) =
      (readString body.length body).map fun p => (.str p.1, p.2) := by
  have hscalar : parseScalar (34 :: body) =
      (readString body.length body).map fun p => (.str p.1, p.2) := by
    rw [parseScalar, expect_self]
  cases depth with
  | zero => simpa [parseValue] using hscalar
  | succ depth =>
    simpa [parseValue, expect_of_ne (show (34 : UInt8) ≠ 123 by decide),
      expect_of_ne (show (34 : UInt8) ≠ 91 by decide)] using hscalar

/-- The step of readMembers over a member whose name is put into the text as it is. -/
theorem readMembers_named (hk : IsLiteral k) (s : GoString) :
    readMembers value (n + 1) (34 :: (k ++ 34 :: 58 :: s)) =
      (value (skipSpace s)).bind fun r =>
        match expect 44 (skipSpace r.2) with
        | some rest => (readMembers value n rest).map fun p => ((k, r.1) :: p.1, p.2)
        | none => (expect 125 (skipSpace r.2)).map fun rest => ([(k, r.1)], rest) := by
  have hkey := readString_literal hk (show k.length < (k ++ 34 :: 58 :: s).length by
    rw [List.length_append, List.length_cons]; omega) (58 :: s)
  simp only [readMembers, skipSpace_of_head (show isSpace 34 = false from rfl), expect_self, hkey,
    skipSpace_of_head (show isSpace 58 = false from rfl), Option.bind_eq_bind, Option.bind_some]
  cases value (skipSpace s) with
  | none => rfl
  | some r =>
    simp only [Option.bind_some]
    cases expect 44 (skipSpace r.2) with
    | some rest => exact Option.map_eq_bind.symm
    | none => exact Option.map_eq_bind.symm

/-- The first member of an object whose name is put into the text as it is and whose value
is a string. -/
theorem readMembers_string (hk : IsLiteral k) (body : GoString) :
    readMembers (parseValue depth) (n + 1) (34 :: (k ++ 34 :: 58 :: 34 :: body)) =
      (readString body.length body).bind fun r =>
        match expect 44 (skipSpace r.2) with
        | some rest => (readMembers (parseValue depth) n rest).map fun p =>
            ((k, .str r.1) :: p.1, p.2)
        | none => (expect 125 (skipSpace r.2)).map fun rest => ([(k, .str r.1)], rest) := by
  rw [readMembers_named hk, skipSpace_of_head (show isSpace 34 = false from rfl),
    parseValue_quoted]
  cases readString body.length body with
  | none => rfl
  | some r => rfl

theorem readMembers_head (hk : IsLiteral k) {members : List (GoString × Json)} {r : GoString}
    (h : readMembers (parseValue depth) n (memberText k v rest) = some (members, r)) :
    ∃ w members', members = (k, .str w) :: members' := by
  cases n with
  | zero => simp [readMembers] at h
  | succ n =>
    rw [memberText, readMembers_string hk] at h
    obtain ⟨⟨w, r₁⟩, -, hend⟩ := Option.bind_eq_some_iff.mp h
    dsimp only at hend
    split at hend
    · obtain ⟨⟨members', r'⟩, -, heq⟩ := Option.map_eq_some_iff.mp hend
      exact ⟨w, members', (Prod.mk.inj heq).1.symm⟩
    · obtain ⟨r', -, heq⟩ := Option.map_eq_some_iff.mp hend
      exact ⟨w, [], (Prod.mk.inj heq).1.symm⟩

theorem readMembers_literal (hk : IsLiteral k) (hv : IsLiteral v) (rest : GoString) :
    readMembers (parseValue depth) (n + 1) (memberText k v (44 :: rest)) =
      (readMembers (parseValue depth) n rest).map fun p => ((k, .str v) :: p.1, p.2) := by
  have hstring := readString_literal hv (show v.length < (v ++ 34 :: 44 :: rest).length by
    rw [List.length_append, List.length_cons]; omega) (44 :: rest)
  rw [memberText, readMembers_string hk, hstring]
  simp only [Option.bind_some, skipSpace_of_head (show isSpace 44 = false from rfl), expect_self]

theorem readMembers_last (hk : IsLiteral k) (hv : IsLiteral v) (rest : GoString) :
    readMembers (parseValue depth) (n + 1) (memberText k v (125 :: rest)) =
      some ([(k, .str v)], rest) := by
  have hstring := readString_literal hv (show v.length < (v ++ 34 :: 125 :: rest).length by
    rw [List.length_append, List.length_cons]; omega) (125 :: rest)
  rw [memberText, readMembers_string hk, hstring]
  simp only [Option.bind_some, skipSpace_of_head (show isSpace 125 = false from rfl),
    expect_of_ne (show (125 : UInt8) ≠ 44 by decide), expect_self, Option.map_some]

theorem readString_comma {s w r : GoString} (h : readString n (44 :: 34 :: s) = some (w, r)) :
    w = [44] ∧ r = s := by
  have hlit : IsLiteral [44] := isLiteral_of_all (by decide)
  cases n with
  | zero => simp [readString] at h
  | succ n =>
    cases n with
    | zero => simp [readString, expect_of_ne (show (44 : UInt8) ≠ 34 by decide)] at h
    | succ n =>
      have hread := readString_literal hlit (show [(44 : UInt8)].length < n + 1 + 1 by simp) s
      rw [List.singleton_append, h] at hread
      exact Prod.mk.inj (Option.some.inj hread)

/-- The first member is read as it was put into the text only if its value is a literal; the
next member is then read as it was put there too. -/
theorem readMembers_exact (hk : IsLiteral k) {c : UInt8} (hspace : isSpace c = false)
    (hcomma : c ≠ 44) (hbrace : c ≠ 125) {members : List (GoString × Json)} {r : GoString}
    (h : readMembers (parseValue depth) (n + 1) (memberText k v (44 :: 34 :: c :: rest)) =
      some (members, r)) :
    ∃ w members', members = (k, .str w) :: members' ∧
      (w = v → IsLiteral v ∧
        readMembers (parseValue depth) n (34 :: c :: rest) = some (members', r)) := by
  rw [memberText, readMembers_string hk] at h
  obtain ⟨⟨w, r₁⟩, hstring, hend⟩ := Option.bind_eq_some_iff.mp h
  clear h
  dsimp only at hend
  have hsync : w = v → IsLiteral v ∧ r₁ = 44 :: 34 :: c :: rest := by
    rintro rfl
    rcases readString_split (readString_valid hstring) hstring with
      ⟨hlit, -, hr⟩ | hshort | ⟨n', w', hswallow⟩
    · exact ⟨hlit, hr⟩
    · exact absurd hshort (Nat.lt_irrefl _)
    · -- the string ends at the quote of the next member, where neither member nor object ends
      rw [(readString_comma hswallow).2, skipSpace_of_head hspace, expect_of_ne hcomma,
        expect_of_ne hbrace] at hend
      simp at hend
  cases hnext : expect 44 (skipSpace r₁) with
  | some r₂ =>
    rw [hnext] at hend
    obtain ⟨⟨members', r'⟩, hmembers, heq⟩ := Option.map_eq_some_iff.mp hend
    obtain ⟨rfl, rfl⟩ := Prod.mk.inj heq
    refine ⟨w, members', rfl, fun hw => ?_⟩
    obtain ⟨hlit, rfl⟩ := hsync hw
    rw [skipSpace_of_head (show isSpace 44 = false from rfl), expect_self] at hnext
    obtain rfl := Option.some.inj hnext
    exact ⟨hlit, hmembers⟩
  | none =>
    rw [hnext] at hend
    obtain ⟨r₂, -, heq⟩ := Option.map_eq_some_iff.mp hend
    obtain ⟨rfl, rfl⟩ := Prod.mk.inj heq
    refine ⟨w, [], rfl, fun hw => ?_⟩
    obtain ⟨-, rfl⟩ := hsync hw
    rw [skipSpace_of_head (show isSpace 44 = false from rfl), expect_self] at hnext
    simp at hnext

/-- Decoding an object that starts with a member. -/
theorem unmarshalMap_memberText (k v rest : GoString) :
    unmarshalMap (123 :: memberText k v rest) =
      (readMembers (parseValue (maxNestingDepth - 1)) (memberText k v rest).length
        (memberText k v rest)).bind fun p =>
          if skipSpace p.2 = [] then some (GoMap.ofMembers (canonMembers p.1)) else none := by
  have hobject : readObject (parseValue (maxNestingDepth - 1)) (memberText k v rest) =
      readMembers (parseValue (maxNestingDepth - 1)) (memberText k v rest).length
        (memberText k v rest) := by
    rw [readObject, memberText, skipSpace_of_head (show isSpace 34 = false from rfl),
      expect_of_ne (show (34 : UInt8) ≠ 125 by decide)]
  rw [← hobject, unmarshalMap, parseText, parseFirst,
    skipSpace_of_head (show isSpace 123 = false from rfl),
    show maxNestingDepth = 9999 + 1 from rfl, parseValue_brace,
    show (9999 + 1 - 1 : ℕ) = 9999 from rfl]
  cases readObject (parseValue 9999) (memberText k v rest) with
  | none => rfl
  | some p =>
    simp only [Option.map_some, Option.bind_eq_bind, Option.bind_some]
    by_cases hend : skipSpace p.2 = []
    · simp [hend]
    · simp [hend]

end Members

end VissServer.Go
