import VissServer.Go.JsonMarks

/-!
How a JSON text spells its value: its strings as they are written and as they are read, the ends
of its objects, and the bytes between them.
-/
namespace VissServer.Go

/-! ## Strings as they are written -/

/-- What can stand between quotes: no quote that is not escaped, and no open escape. -/
inductive RawString : GoString → Prop
  | nil : RawString []
  | byte {c : UInt8} {raw : GoString} : c ≠ 34 → c ≠ 92 → RawString raw → RawString (c :: raw)
  | escape {c : UInt8} {raw : GoString} : RawString raw → RawString (92 :: c :: raw)

/-- A character of a string as it is written and as it is read. -/
inductive SpelledChar : GoString → GoString → Prop
  | byte {c : UInt8} : c < 128 → c ≠ 34 → c ≠ 92 → SpelledChar [c] [c]
  | rune {seg : GoString} : IsRune seg → (∀ c ∈ seg, 128 ≤ c) → SpelledChar seg seg
  | invalid {c : UInt8} : 128 ≤ c → SpelledChar [c] replacementChar
  | escape {c d : UInt8} : c ∈ str "\"\\/bfnrt" → d < 128 → SpelledChar [92, c] [d]
  | unicode {a b c d : UInt8} {n : ℕ} : hex4 [a, b, c, d] = some (n, []) →
      SpelledChar [92, 117, a, b, c, d] (encodeRune n)
  | pair {a b c d a' b' c' d' : UInt8} {n n' code : ℕ} : hex4 [a, b, c, d] = some (n, []) →
      hex4 [a', b', c', d'] = some (n', []) → 128 ≤ n → 128 ≤ n' → 0x10000 ≤ code →
      code ≤ 0x10FFFF → SpelledChar [92, 117, a, b, c, d, 92, 117, a', b', c', d'] (encodeRune code)

/-- A string as it is written and as it is read. -/
inductive Spelled : GoString → GoString → Prop
  | nil : Spelled [] []
  | char {front t raw w : GoString} :
      SpelledChar front t → Spelled raw w → Spelled (front ++ raw) (t ++ w)

section Reading

variable {s t w r : GoString} {n : ℕ}

theorem RawString.append {raw raw' : GoString} (h : RawString raw) (h' : RawString raw') :
    RawString (raw ++ raw') := by
  induction h with
  | nil => exact h'
  | byte hquote hslash _ ih => exact .byte hquote hslash ih
  | escape _ ih => exact .escape ih

theorem rawString_of_bytes (h : ∀ c ∈ s, c ≠ 34 ∧ c ≠ 92) : RawString s := by
  induction s with
  | nil => exact .nil
  | cons c s ih =>
    obtain ⟨⟨hquote, hslash⟩, hs⟩ := List.forall_mem_cons.mp h
    exact .byte hquote hslash (ih hs)

/-- The four digits in front of a rest. -/
theorem hex4_cut (h : hex4 s = some (n, r)) :
    ∃ a b c d, s = a :: b :: c :: d :: r ∧ hex4 [a, b, c, d] = some (n, []) := by
  unfold hex4 at h
  split at h
  · next a b c d t =>
    simp only [Option.bind_eq_bind, Option.bind_eq_some_iff, Option.some.injEq,
      Prod.mk.injEq] at h
    obtain ⟨x, hx, y, hy, z, hz, v, hv, hn, rfl⟩ := h
    refine ⟨a, b, c, d, rfl, ?_⟩
    simp [hex4, hx, hy, hz, hv, hn]
  · cases h

/-- A digit is no quote, no backslash and no brace. -/
theorem hexVal_inner {c : UInt8} (h : hexVal c = some n) :
    c < 128 ∧ c ≠ 34 ∧ c ≠ 92 ∧ c ≠ 125 := by
  refine ⟨(hexVal_some h).2, ?_, ?_, ?_⟩
  all_goals
    rintro rfl
    cases h

theorem hex4_inner {a b c d : UInt8} (h : hex4 [a, b, c, d] = some (n, [])) :
    ∀ x ∈ [a, b, c, d], x < 128 ∧ x ≠ 34 ∧ x ≠ 92 ∧ x ≠ 125 := by
  simp only [hex4, Option.bind_eq_bind, Option.bind_eq_some_iff] at h
  obtain ⟨x, hx, y, hy, z, hz, v, hv, -⟩ := h
  simp only [List.forall_mem_cons, List.not_mem_nil, false_imp_iff, implies_true, and_true]
  exact ⟨hexVal_inner hx, hexVal_inner hy, hexVal_inner hz, hexVal_inner hv⟩

theorem hex4_lt {a b c d : UInt8} (h : hex4 [a, b, c, d] = some (n, [])) : n < 0x10000 := by
  have hlt : ∀ {c : UInt8} {x : ℕ}, hexVal c = some x → x < 16 := by
    intro c x hx
    unfold hexVal at hx
    simp only [UInt8.le_iff_toNat_le, UInt8.reduceToNat] at hx
    split_ifs at hx
    all_goals
      simp only [Option.some.injEq] at hx
      omega
  simp only [hex4, Option.bind_eq_bind, Option.bind_eq_some_iff, Option.some.injEq,
    Prod.mk.injEq] at h
  obtain ⟨x, hx, y, hy, z, hz, v, hv, rfl, -⟩ := h
  have hx' := hlt hx
  have hy' := hlt hy
  have hz' := hlt hz
  have hv' := hlt hv
  omega

theorem unicodeEscape_spelled (h : unicodeEscape s = some (t, r)) :
    ∃ front, 92 :: 117 :: s = front ++ r ∧ SpelledChar front t := by
  simp only [unicodeEscape, Option.bind_eq_bind, Option.bind_eq_some_iff] at h
  obtain ⟨⟨n, s₁⟩, hhex, h⟩ := h
  obtain ⟨a, b, c, d, rfl, hdigits⟩ := hex4_cut hhex
  dsimp only at h
  split at h
  · next hhigh =>
    split at h
    · next low s' hlow =>
      obtain ⟨rfl, rfl⟩ := Prod.mk.inj (Option.some.inj h)
      simp only [lowSurrogate, Option.bind_eq_bind, Option.bind_eq_some_iff] at hlow
      obtain ⟨s₂, hslash, s₃, hu, ⟨m, s₄⟩, hhex', hlow⟩ := hlow
      obtain ⟨a', b', c', d', rfl, hdigits'⟩ := hex4_cut hhex'
      dsimp only at hlow
      split at hlow
      · next hrange =>
        obtain ⟨rfl, rfl⟩ := Prod.mk.inj (Option.some.inj hlow)
        refine ⟨[92, 117, a, b, c, d, 92, 117, a', b', c', d'], ?_, ?_⟩
        · rw [expect_some hslash, expect_some hu]
          rfl
        · exact .pair hdigits hdigits' (by omega) (by omega) (by omega) (by omega)
      · cases hlow
    · obtain ⟨rfl, rfl⟩ := Prod.mk.inj (Option.some.inj h)
      have hsurrogate : encodeRune n = replacementChar := by
        rw [encodeRune, if_neg (by omega), if_neg (by omega), if_pos (by omega)]
      refine ⟨[92, 117, a, b, c, d], rfl, ?_⟩
      rw [← hsurrogate]
      exact .unicode hdigits
  · obtain ⟨rfl, rfl⟩ := Prod.mk.inj (Option.some.inj h)
    exact ⟨[92, 117, a, b, c, d], rfl, .unicode hdigits⟩

theorem escape_spelled (h : escape s = some (t, r)) :
    ∃ front, 92 :: s = front ++ r ∧ SpelledChar front t := by
  cases s with
  | nil => simp [escape] at h
  | cons c s =>
    have hone : ∀ {d : UInt8}, c ∈ str "\"\\/bfnrt" → d < 128 →
        some ([d], s) = some (t, r) → ∃ front, 92 :: c :: s = front ++ r ∧ SpelledChar front t := by
      intro d hc hd heq
      obtain ⟨rfl, rfl⟩ := Prod.mk.inj (Option.some.inj heq)
      exact ⟨[92, c], rfl, .escape hc hd⟩
    rw [escape] at h
    split at h
    · next hc =>
      obtain rfl | rfl | rfl := hc
      all_goals exact hone (by decide) (by decide) h
    · split_ifs at h with hb hf hn hr ht hu
      · exact hone (hb ▸ by decide) (by decide) h
      · exact hone (hf ▸ by decide) (by decide) h
      · exact hone (hn ▸ by decide) (by decide) h
      · exact hone (hr ▸ by decide) (by decide) h
      · exact hone (ht ▸ by decide) (by decide) h
      · rw [hu]
        exact unicodeEscape_spelled h

theorem readChar_spelled (h : readChar s = some (t, r)) (hquote : expect 34 s = none) :
    ∃ front, s = front ++ r ∧ SpelledChar front t := by
  cases s with
  | nil => simp [readChar] at h
  | cons c s =>
    have hne : c ≠ 34 := by
      rintro rfl
      rw [expect_self] at hquote
      cases hquote
    rw [readChar] at h
    split at h
    · next hslash =>
      rw [hslash]
      exact escape_spelled h
    · next hslash =>
      split at h
      · cases h
      · split at h
        · next hlen =>
          obtain ⟨rfl, rfl⟩ := Prod.mk.inj (Option.some.inj h)
          have hhigh : 128 ≤ c := by
            refine lead_of_leadLen fun hlead => ?_
            have hrune := (IsRune.one hlead).runeLen_append s
            rw [List.singleton_append, hlen] at hrune
            cases hrune
          exact ⟨[c], rfl, .invalid hhigh⟩
        · next hrune =>
          obtain ⟨rfl, rfl⟩ := Prod.mk.inj (Option.some.inj h)
          have hvalid := isRune_take hrune
          refine ⟨_, (List.take_append_drop _ _).symm, ?_⟩
          obtain ⟨n, hn⟩ := Nat.exists_eq_succ_of_ne_zero hrune
          rcases hvalid.cases_head with ⟨a, ha, heq⟩ | hhigh
          · have hfirst : c = a := by
              rw [hn, List.take_succ_cons] at heq
              exact (List.cons.inj heq).1
            rw [heq, ← hfirst]
            exact .byte (hfirst ▸ ha) hne hslash
          · exact .rune hvalid hhigh

/-- A string that is read up to its closing quote. -/
theorem readString_spelled (h : readString n s = some (w, r)) :
    ∃ raw, s = raw ++ 34 :: r ∧ Spelled raw w := by
  induction n generalizing s w with
  | zero => simp [readString] at h
  | succ n ih =>
    unfold readString at h
    split at h
    · next hquote =>
      obtain ⟨rfl, rfl⟩ := Prod.mk.inj (Option.some.inj h)
      exact ⟨[], expect_some hquote, .nil⟩
    · next hquote =>
      simp only [Option.bind_eq_bind, Option.bind_eq_some_iff, Option.some.injEq,
        Prod.mk.injEq] at h
      obtain ⟨⟨t, s'⟩, hchar, ⟨w', s''⟩, hstring, rfl, rfl⟩ := h
      obtain ⟨front, rfl, hfront⟩ := readChar_spelled hchar hquote
      obtain ⟨raw, hs', hraw⟩ := ih hstring
      dsimp only at hs'
      exact ⟨front ++ raw, by rw [hs', List.append_assoc], .char hfront hraw⟩

end Reading

section Spellings

variable {front t w : GoString}

theorem SpelledChar.rawString (h : SpelledChar front t) : RawString front := by
  have hbytes : ∀ {s : GoString}, (∀ x ∈ s, x < 128 ∧ x ≠ 34 ∧ x ≠ 92 ∧ x ≠ 125) →
      RawString s := fun hs => rawString_of_bytes fun c hc => ⟨(hs c hc).2.1, (hs c hc).2.2.1⟩
  cases h with
  | byte _ hquote hslash => exact .byte hquote hslash .nil
  | rune _ hhigh =>
    apply rawString_of_bytes
    intro c hc
    have hc' := hhigh c hc
    refine ⟨?_, ?_⟩
    all_goals
      rintro rfl
      exact absurd hc' (by decide)
  | invalid hhigh =>
    refine .byte ?_ ?_ .nil
    all_goals
      rintro rfl
      exact absurd hhigh (by decide)
  | escape => exact .escape .nil
  | unicode hdigits => exact .escape (hbytes (hex4_inner hdigits))
  | pair hdigits hdigits' =>
    exact .escape ((hbytes (hex4_inner hdigits)).append (.escape (hbytes (hex4_inner hdigits'))))

theorem Spelled.rawString {raw : GoString} (h : Spelled raw w) : RawString raw := by
  induction h with
  | nil => exact .nil
  | char hchar _ ih => exact hchar.rawString.append ih

theorem SpelledChar.ne_nil (h : SpelledChar front t) : front ≠ [] := by
  cases h with
  | rune hrune => exact hrune.ne_nil
  | _ => simp

/-- A character is written with bytes below 128 alone, or with none. -/
theorem SpelledChar.low_or_high (h : SpelledChar front t) :
    (∀ c ∈ front, c < 128) ∨ ∀ c ∈ front, 128 ≤ c := by
  cases h with
  | byte hlow => exact .inl (List.forall_mem_singleton.mpr hlow)
  | rune _ hhigh => exact .inr hhigh
  | invalid hhigh => exact .inr (List.forall_mem_singleton.mpr hhigh)
  | escape hc =>
    refine .inl (List.forall_mem_cons.mpr ⟨by decide, List.forall_mem_singleton.mpr ?_⟩)
    exact (show ∀ c ∈ str "\"\\/bfnrt", c < 128 by decide +kernel) _ hc
  | unicode hdigits =>
    refine .inl (List.forall_mem_cons.mpr ⟨by decide, List.forall_mem_cons.mpr ⟨by decide, ?_⟩⟩)
    exact fun c hc => (hex4_inner hdigits c hc).1
  | @pair a b c d a' b' c' d' _ _ _ hdigits hdigits' =>
    have hfirst : ∀ x ∈ [92, 117, a, b, c, d], x < 128 :=
      List.forall_mem_cons.mpr ⟨by decide, List.forall_mem_cons.mpr ⟨by decide,
        fun x hx => (hex4_inner hdigits x hx).1⟩⟩
    have hsecond : ∀ x ∈ [92, 117, a', b', c', d'], x < 128 :=
      List.forall_mem_cons.mpr ⟨by decide, List.forall_mem_cons.mpr ⟨by decide,
        fun x hx => (hex4_inner hdigits' x hx).1⟩⟩
    exact .inl fun x hx => (List.mem_append (s := [92, 117, a, b, c, d])).mp hx |>.elim
      (hfirst x) (hsecond x)

/-- A byte below 128 in front of a string is a character of it, but for a backslash. -/
theorem Spelled.head {c : UInt8} {raw : GoString} (h : Spelled (c :: raw) w) (hlow : c < 128) (hslash : c ≠ 92) :
    ∃ w', w = c :: w' ∧ Spelled raw w' := by
  generalize hwhole : c :: raw = whole at h
  cases h with
  | nil => cases hwhole
  | @char front t raw' w' hchar hraw =>
    cases hchar with
    | byte =>
      obtain ⟨rfl, rfl⟩ := List.cons.inj hwhole
      exact ⟨w', rfl, hraw⟩
    | rune hrune hhigh =>
      obtain ⟨a, more, rfl⟩ := List.exists_cons_of_ne_nil hrune.ne_nil
      obtain ⟨rfl, -⟩ := List.cons.inj hwhole
      exact absurd hlow (not_lt_of_le_byte (hhigh _ List.mem_cons_self))
    | invalid hhigh =>
      obtain ⟨rfl, -⟩ := List.cons.inj hwhole
      exact absurd hlow (not_lt_of_le_byte hhigh)
    | escape => exact absurd (List.cons.inj hwhole).1 hslash
    | unicode => exact absurd (List.cons.inj hwhole).1 hslash
    | pair => exact absurd (List.cons.inj hwhole).1 hslash

/-- A closing brace is a character of its own. -/
theorem SpelledChar.of_mem_brace (h : SpelledChar front t) (hmem : 125 ∈ front) :
    front = [125] ∧ t = [125] := by
  cases h with
  | byte =>
    obtain rfl := List.mem_singleton.mp hmem
    exact ⟨rfl, rfl⟩
  | rune _ hhigh => exact absurd (hhigh _ hmem) (by decide)
  | invalid hhigh =>
    obtain rfl := List.mem_singleton.mp hmem
    exact absurd hhigh (by decide)
  | @escape c _ hc =>
    have hc' : c = 125 := by
      have hmem' : 125 = c := by simpa using hmem
      exact hmem'.symm
    exact absurd (hc' ▸ hc) (by decide)
  | @unicode a b c d _ hdigits =>
    have hmem' : (125 : UInt8) ∈ [a, b, c, d] := by
      simpa using hmem
    exact absurd rfl (hex4_inner hdigits _ hmem').2.2.2
  | @pair a b c d a' b' c' d' _ _ _ hdigits hdigits' =>
    have hmem' : (125 : UInt8) ∈ [a, b, c, d] ∨ (125 : UInt8) ∈ [a', b', c', d'] := by
      simpa [or_assoc] using hmem
    obtain hmem' | hmem' := hmem'
    · exact absurd rfl (hex4_inner hdigits _ hmem').2.2.2
    · exact absurd rfl (hex4_inner hdigits' _ hmem').2.2.2

/-- A string is read apart at a closing brace. -/
theorem Spelled.split_brace {before behind : GoString} (h : Spelled (before ++ 125 :: behind) w) :
    ∃ v v', w = v ++ 125 :: v' ∧ Spelled before v ∧ Spelled behind v' := by
  generalize hwhole : before ++ 125 :: behind = whole at h
  induction h generalizing before with
  | nil => simp at hwhole
  | @char front t raw w hchar hraw ih =>
    obtain ⟨excess, hfront, hover⟩ | ⟨before', hbefore, hrest⟩ :=
      List.append_eq_append_iff.mp hwhole
    · cases excess with
      | nil =>
        rw [List.append_nil] at hfront
        rw [List.nil_append] at hover
        obtain ⟨v, v', rfl, hv, hv'⟩ := @ih [] hover
        refine ⟨t ++ v, v', by rw [List.append_assoc], ?_, hv'⟩
        rw [← hfront, ← List.append_nil front]
        exact .char hchar hv
      | cons c excess =>
        obtain ⟨rfl, rfl⟩ := List.cons.inj hover
        have hmem : 125 ∈ front := by
          rw [hfront]
          simp
        obtain ⟨hbrace, rfl⟩ := hchar.of_mem_brace hmem
        rw [hbrace] at hfront
        obtain ⟨rfl, hnil⟩ := List.append_eq_singleton_iff.mp hfront.symm |>.resolve_right (by simp)
        obtain rfl := (List.cons.inj hnil).2
        exact ⟨[], w, rfl, .nil, hraw⟩
    · obtain ⟨v, v', rfl, hv, hv'⟩ := ih hrest.symm
      refine ⟨t ++ v, v', by rw [List.append_assoc], ?_, hv'⟩
      rw [hbefore]
      exact .char hchar hv

end Spellings

/-! ## Weights -/

/-- The bytes of a string below 128. -/
def lowBytes (s : GoString) : GoString := s.filter (· < 128)

/-- The code units of UTF-16 that a string takes, told by the bytes of its encodings. -/
def codeUnits (s : GoString) : ℕ :=
  (s.map fun c => if c < 128 then 1 else if c < 192 then 0 else if c < 240 then 1 else 2).sum

/-- The characters of a string below 128. -/
def asciiCount (s : GoString) : ℕ := s.countP (· < 128)

/-- The weight of a string as it is written, if an escape of four digits weighs what f says, any
other escape and a byte below 128 weigh 1, and the other bytes weigh nothing. -/
def weigh (f : GoString → ℕ) : GoString → ℕ
  | [] => 0
  | [c] => if c < 128 then 1 else 0
  | c :: d :: s =>
      if c = 92 then
        if d = 117 then
          match s with
          | h₁ :: h₂ :: h₃ :: h₄ :: s' => f [h₁, h₂, h₃, h₄] + weigh f s'
          | _ => 0
        else 1 + weigh f s
      else (if c < 128 then 1 else 0) + weigh f (d :: s)

section Weights

variable {f : GoString → ℕ} {front t raw w : GoString}

theorem weigh_byte {c : UInt8} (hc : c ≠ 92) (s : GoString) :
    weigh f (c :: s) = (if c < 128 then 1 else 0) + weigh f s := by
  cases s with
  | nil => rfl
  | cons d s =>
    rw [weigh.eq_def]
    exact if_neg hc

theorem weigh_escape {c : UInt8} (hc : c ≠ 117) (s : GoString) :
    weigh f (92 :: c :: s) = 1 + weigh f s := by
  rw [weigh.eq_def]
  exact if_neg hc

theorem weigh_unicode (a b c d : UInt8) (s : GoString) :
    weigh f (92 :: 117 :: a :: b :: c :: d :: s) = f [a, b, c, d] + weigh f s := rfl

theorem weigh_high (h : ∀ c ∈ front, 128 ≤ c) (s : GoString) :
    weigh f (front ++ s) = weigh f s := by
  induction front with
  | nil => rfl
  | cons c front ih =>
    obtain ⟨hc, hfront⟩ := List.forall_mem_cons.mp h
    have hne : c ≠ 92 := by
      rintro rfl
      exact absurd hc (by decide)
    rw [List.cons_append, weigh_byte hne, if_neg (UInt8.not_lt.mpr hc), Nat.zero_add, ih hfront]

theorem weigh_of_high (h : ∀ c ∈ front, 128 ≤ c) : weigh f front = 0 := by
  rw [← List.append_nil front, weigh_high h]
  rfl

theorem SpelledChar.isRune (h : SpelledChar front t) : IsRune t := by
  have hone : ∀ {c : UInt8}, c < 128 → IsRune [c] := by
    intro c hc
    have hlt : c < 0x80 := hc
    exact .one (by simp [leadLen, hlt])
  cases h with
  | byte hc => exact hone hc
  | rune hrune => exact hrune
  | invalid => exact isRune_replacementChar
  | escape _ hd => exact hone hd
  | unicode => exact isRune_encodeRune _
  | pair => exact isRune_encodeRune _

theorem SpelledChar.weigh_append (h : SpelledChar front t) (s : GoString) :
    weigh f (front ++ s) = weigh f front + weigh f s := by
  cases h with
  | byte _ _ hslash => exact weigh_byte hslash s
  | rune _ hhigh => rw [weigh_high hhigh, weigh_of_high hhigh, Nat.zero_add]
  | @invalid c hhigh =>
    have hne : c ≠ 92 := by
      rintro rfl
      exact absurd hhigh (by decide)
    exact weigh_byte hne s
  | @escape c _ hc =>
    have hne : c ≠ 117 := by
      rintro rfl
      exact absurd hc (by decide)
    rw [List.cons_append, List.singleton_append, weigh_escape hne, weigh_escape hne]
    rfl
  | unicode =>
    simp only [List.cons_append, List.nil_append, weigh_unicode]
    rfl
  | pair =>
    have hnil : weigh f [] = 0 := rfl
    simp only [List.cons_append, List.nil_append, weigh_unicode, Nat.add_assoc, hnil,
      Nat.zero_add]

theorem codeUnits_append (s s' : GoString) : codeUnits (s ++ s') = codeUnits s + codeUnits s' := by
  rw [codeUnits, List.map_append, List.sum_append]
  rfl

theorem codeUnit_ofNat {n : ℕ} (h : n < 256) : codeUnits [UInt8.ofNat n] =
    if n < 128 then 1 else if n < 192 then 0 else if n < 240 then 1 else 2 := by
  simp only [codeUnits, List.map_cons, List.map_nil, List.sum_cons, List.sum_nil, Nat.add_zero,
    UInt8.lt_iff_toNat_lt, toNat_ofNat_of_lt h, UInt8.reduceToNat]

/-- A rune takes one code unit or two. -/
theorem codeUnits_encodeRune {n : ℕ} (h : n ≤ 0x10FFFF) :
    codeUnits (encodeRune n) = if n < 0x10000 then 1 else 2 := by
  have hcons : ∀ (c d : UInt8) (s : GoString),
      codeUnits (c :: d :: s) = codeUnits [c] + codeUnits (d :: s) :=
    fun c d s => codeUnits_append [c] (d :: s)
  have htail : ∀ m, codeUnits [UInt8.ofNat (0x80 + m % 64)] = 0 := by
    intro m
    rw [codeUnit_ofNat (by omega), if_neg (by omega), if_pos (by omega)]
  unfold encodeRune
  split
  · rw [codeUnit_ofNat (by omega), if_pos (by omega), if_pos (by omega)]
  · split
    · rw [hcons, htail, codeUnit_ofNat (by omega), if_neg (by omega), if_neg (by omega),
        if_pos (by omega), if_pos (by omega)]
    · split
      · next hsurrogate =>
        rw [if_pos (by omega)]
        rfl
      · split
        · rw [hcons, hcons, htail, htail, codeUnit_ofNat (by omega), if_neg (by omega),
            if_neg (by omega), if_pos (by omega)]
        · rw [hcons, hcons, hcons, htail, htail, htail, codeUnit_ofNat (by omega),
            if_neg (by omega), if_neg (by omega), if_neg (by omega)]

/-- A rune is one character below 128, or none. -/
theorem asciiCount_encodeRune (n : ℕ) : asciiCount (encodeRune n) = if n < 128 then 1 else 0 := by
  split
  · next h =>
    have hlow : UInt8.ofNat n < 128 := by
      rw [UInt8.lt_iff_toNat_lt, toNat_ofNat_of_lt (by omega)]
      exact h
    rw [encodeRune, if_pos h, asciiCount, List.countP_singleton, if_pos (decide_eq_true hlow)]
  · next h =>
    rcases (isRune_encodeRune n).cases_head with ⟨a, -, heq⟩ | hhigh
    · rw [encodeRune, if_neg h] at heq
      split_ifs at heq
      · simp at heq
      · simp [replacementChar] at heq
      · simp at heq
      · simp at heq
    · rw [asciiCount, List.countP_eq_zero]
      intro c hc
      rw [decide_eq_true_eq]
      exact UInt8.not_lt.mpr (hhigh c hc)

/-- The first byte of a longer encoding. -/
theorem lead_ge {a : UInt8} (h : 1 < leadLen a) : 192 ≤ a := by
  unfold leadLen at h
  simp only [UInt8.lt_iff_toNat_lt, UInt8.le_iff_toNat_le, UInt8.reduceToNat] at h ⊢
  split_ifs at h
  all_goals omega

theorem IsRune.codeUnits_pos {seg : GoString} (h : IsRune seg) : 0 < codeUnits seg := by
  have hlead : ∀ {a : UInt8} {s : GoString}, 192 ≤ a → 0 < codeUnits (a :: s) := by
    intro a s ha
    have hlow : ¬ a < 128 := by
      simp only [UInt8.lt_iff_toNat_lt, UInt8.le_iff_toNat_le, UInt8.reduceToNat] at ha ⊢
      omega
    rw [codeUnits, List.map_cons, List.sum_cons, if_neg hlow, if_neg (UInt8.not_lt.mpr ha)]
    split <;> omega
  cases h with
  | one ha =>
    rw [codeUnits, List.map_singleton, if_pos (lt_of_leadLen ha)]
    decide
  | two ha => exact hlead (lead_ge (by omega))
  | three ha => exact hlead (lead_ge (by omega))
  | four ha => exact hlead (lead_ge (by omega))

/-- The code units of a character are the weight of its spelling. -/
theorem SpelledChar.codeUnits_eq (h : SpelledChar front t) (hlow : ∀ c ∈ front, c < 128) :
    codeUnits t = weigh (fun _ => 1) front := by
  have hnone : ¬ ∀ c ∈ front, 128 ≤ c := by
    intro hhigh
    obtain ⟨c, hc⟩ := List.exists_mem_of_ne_nil _ h.ne_nil
    exact absurd (hlow c hc) (not_lt_of_le_byte (hhigh c hc))
  cases h with
  | @byte c hlt _ hslash =>
    rw [weigh_byte hslash, if_pos hlt, codeUnits, List.map_singleton, if_pos hlt]
    rfl
  | rune _ hhigh => exact absurd hhigh hnone
  | invalid hhigh => exact absurd (List.forall_mem_singleton.mpr hhigh) hnone
  | @escape c d hc hd =>
    have hne : c ≠ 117 := by
      rintro rfl
      exact absurd hc (by decide)
    rw [weigh_escape hne, codeUnits, List.map_singleton, if_pos hd]
    rfl
  | unicode hdigits =>
    have hlt := hex4_lt hdigits
    rw [codeUnits_encodeRune (by omega), if_pos hlt, weigh_unicode]
    rfl
  | pair _ _ _ _ hlow hle =>
    rw [codeUnits_encodeRune hle, if_neg (by omega), weigh_unicode, weigh_unicode]
    rfl

/-- What an escape of four digits weighs by its characters below 128. -/
def asciiEscape (digits : GoString) : ℕ :=
  if (hex4 digits).any (fun p => p.1 < 128) then 1 else 0

/-- The characters below 128 of a string are those of its spelling. -/
theorem SpelledChar.asciiCount_eq (h : SpelledChar front t) :
    asciiCount t = weigh asciiEscape front := by
  have hnone : ∀ {s : GoString}, (∀ c ∈ s, 128 ≤ c) → asciiCount s = 0 := by
    intro s hs
    rw [asciiCount, List.countP_eq_zero]
    intro c hc
    rw [decide_eq_true_eq]
    exact UInt8.not_lt.mpr (hs c hc)
  cases h with
  | @byte c hlow _ hslash =>
    rw [weigh_byte hslash, if_pos hlow, asciiCount, List.countP_singleton,
      if_pos (decide_eq_true hlow)]
    rfl
  | rune _ hhigh => rw [weigh_of_high hhigh, hnone hhigh]
  | invalid hhigh =>
    rw [weigh_of_high (List.forall_mem_singleton.mpr hhigh)]
    decide
  | @escape c d hc hd =>
    have hne : c ≠ 117 := by
      rintro rfl
      exact absurd hc (by decide)
    rw [weigh_escape hne, asciiCount, List.countP_singleton, if_pos (decide_eq_true hd)]
    rfl
  | unicode hdigits =>
    rw [asciiCount_encodeRune, weigh_unicode, asciiEscape, hdigits]
    simp [weigh]
  | pair hdigits hdigits' hn hn' hlow hle =>
    rw [asciiCount_encodeRune, if_neg (by omega), weigh_unicode, weigh_unicode, asciiEscape,
      asciiEscape, hdigits, hdigits']
    simp [weigh, Nat.not_lt.mpr hn, Nat.not_lt.mpr hn']

variable {raw : GoString}

theorem Spelled.asciiCount_eq (h : Spelled raw w) : asciiCount w = weigh asciiEscape raw := by
  induction h with
  | nil => rfl
  | @char front t raw w hchar _ ih =>
    rw [hchar.weigh_append, ← ih, ← hchar.asciiCount_eq]
    exact List.countP_append

theorem asciiCount_append (s s' : GoString) :
    asciiCount (s ++ s') = asciiCount s + asciiCount s' := List.countP_append

/-- A character below 128 is written with at least one. -/
theorem SpelledChar.asciiCount_le (h : SpelledChar front t) : asciiCount t ≤ asciiCount front := by
  have hcode : ∀ (n : ℕ) (s : GoString), asciiCount (encodeRune n) ≤ asciiCount (92 :: s) := by
    intro n s
    have hslash : asciiCount (92 :: s) = asciiCount s + 1 := List.countP_cons_of_pos (by decide)
    rw [asciiCount_encodeRune, hslash]
    split <;> omega
  cases h with
  | byte => exact le_rfl
  | rune => exact le_rfl
  | invalid => exact Nat.zero_le _
  | @escape c d =>
    have hslash : asciiCount [92, c] = asciiCount [c] + 1 := List.countP_cons_of_pos (by decide)
    have hone : asciiCount [d] ≤ 1 := List.countP_le_length
    omega
  | unicode => exact hcode _ _
  | pair => exact hcode _ _

theorem Spelled.asciiCount_le (h : Spelled raw w) : asciiCount w ≤ asciiCount raw := by
  induction h with
  | nil => exact le_rfl
  | char hchar _ ih =>
    rw [asciiCount_append, asciiCount_append]
    exact Nat.add_le_add hchar.asciiCount_le ih

theorem Spelled.codeUnits_eq (h : Spelled raw w) (hlow : ∀ c ∈ raw, c < 128) :
    codeUnits w = weigh (fun _ => 1) raw := by
  induction h with
  | nil => rfl
  | char hchar _ ih =>
    obtain ⟨hfront, hraw⟩ := List.forall_mem_append.mp hlow
    rw [hchar.weigh_append, codeUnits_append, ih hraw, hchar.codeUnits_eq hfront]

theorem SpelledChar.codeUnits_ge (h : SpelledChar front t) :
    weigh (fun _ => 1) front ≤ codeUnits t := by
  obtain hlow | hhigh := h.low_or_high
  · exact (h.codeUnits_eq hlow).ge
  · rw [weigh_of_high hhigh]
    exact Nat.zero_le _

theorem Spelled.codeUnits_ge (h : Spelled raw w) : weigh (fun _ => 1) raw ≤ codeUnits w := by
  induction h with
  | nil => exact le_rfl
  | char hchar _ ih =>
    rw [hchar.weigh_append, codeUnits_append]
    exact Nat.add_le_add hchar.codeUnits_ge ih

/-- Bytes from 128 on weigh nothing, but they are read as characters. -/
theorem Spelled.codeUnits_gt (h : Spelled raw w) {c : UInt8} (hc : c ∈ raw) (hhigh : 128 ≤ c) :
    weigh (fun _ => 1) raw < codeUnits w := by
  induction h with
  | nil => cases hc
  | @char front t raw w hchar hraw ih =>
    rw [hchar.weigh_append, codeUnits_append]
    have hfront := hchar.codeUnits_ge
    have hrest := hraw.codeUnits_ge
    obtain hc | hc := List.mem_append.mp hc
    · obtain hlow | hall := hchar.low_or_high
      · exact absurd (hlow c hc) (not_lt_of_le_byte hhigh)
      · have hpos := hchar.isRune.codeUnits_pos
        rw [weigh_of_high hall]
        omega
    · have hlt := ih hc
      omega

/-! ## Without the bytes from 128 on -/

theorem lowBytes_append (s s' : GoString) : lowBytes (s ++ s') = lowBytes s ++ lowBytes s' :=
  List.filter_append s s'

theorem lowBytes_of_low {s : GoString} (h : ∀ c ∈ s, c < 128) : lowBytes s = s :=
  List.filter_eq_self.mpr fun c hc => decide_eq_true (h c hc)

theorem lowBytes_of_high {s : GoString} (h : ∀ c ∈ s, 128 ≤ c) : lowBytes s = [] :=
  List.filter_eq_nil_iff.mpr fun c hc => by
    rw [decide_eq_true_eq]
    exact UInt8.not_lt.mpr (h c hc)

theorem Spelled.weigh_lowBytes (h : Spelled raw w) : weigh f (lowBytes raw) = weigh f raw := by
  induction h with
  | nil => rfl
  | @char front t raw w hchar _ ih =>
    rw [lowBytes_append, hchar.weigh_append]
    obtain hlow | hhigh := hchar.low_or_high
    · rw [lowBytes_of_low hlow, hchar.weigh_append, ih]
    · rw [lowBytes_of_high hhigh, weigh_of_high hhigh, List.nil_append, ih, Nat.zero_add]

theorem Spelled.rawString_lowBytes (h : Spelled raw w) : RawString (lowBytes raw) := by
  induction h with
  | nil => exact .nil
  | @char front t raw w hchar _ ih =>
    rw [lowBytes_append]
    obtain hlow | hhigh := hchar.low_or_high
    · rw [lowBytes_of_low hlow]
      exact hchar.rawString.append ih
    · rw [lowBytes_of_high hhigh]
      exact ih

/-- Up to a byte from 128 on a string is spelled as far as its bytes below 128 go. -/
theorem Spelled.cut_high {before behind : GoString} {c : UInt8} (hhigh : 128 ≤ c)
    (h : Spelled (before ++ c :: behind) w) : ∃ raw v, Spelled raw v ∧
      lowBytes raw = lowBytes before ∧ weigh f raw ≤ weigh f (before ++ c :: behind) := by
  generalize hwhole : before ++ c :: behind = whole at h
  induction h generalizing before with
  | nil => simp at hwhole
  | @char front t raw w hchar hraw ih =>
    rw [hchar.weigh_append]
    have hjoin : ∀ {before'}, before = front ++ before' → before' ++ c :: behind = raw →
        ∃ raw' v, Spelled raw' v ∧ lowBytes raw' = lowBytes before ∧
          weigh f raw' ≤ weigh f front + weigh f raw := by
      intro before' hbefore hrest
      obtain ⟨raw', v, hspelled, hlow, hle⟩ := ih hrest
      refine ⟨front ++ raw', t ++ v, .char hchar hspelled, ?_, ?_⟩
      · rw [lowBytes_append, hlow, hbefore, lowBytes_append]
      · rw [hchar.weigh_append]
        omega
    obtain ⟨excess, hfront, hover⟩ | ⟨before', hbefore, hrest⟩ :=
      List.append_eq_append_iff.mp hwhole
    · cases excess with
      | nil => exact @hjoin [] (by rw [hfront, List.append_nil, List.append_nil]) hover
      | cons d excess =>
        obtain ⟨rfl, rfl⟩ := List.cons.inj hover
        obtain hlow | hall := hchar.low_or_high
        · have hlt : c < 128 := hlow c (by simp [hfront])
          exact absurd hlt (not_lt_of_le_byte hhigh)
        · refine ⟨[], [], .nil, ?_, Nat.zero_le _⟩
          rw [hfront] at hall
          exact (lowBytes_of_high (List.forall_mem_append.mp hall).1).symm
    · exact hjoin hbefore hrest.symm

end Weights
end VissServer.Go
