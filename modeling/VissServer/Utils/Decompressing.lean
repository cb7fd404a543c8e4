import Mathlib.Data.List.Nodup
import VissServer.Utils.Compression

/-!
Which byte strings DecompressMessage reads to their end. The grammar of compressed messages
says for each token which bytes it takes and what is left behind it; the decompression of a
message that is not of the grammar reads outside the message, the code list or the path list.
-/
namespace VissServer.Utils

open VissServer.Go

/-! ## The grammar of compressed messages -/

/-- The number of bytes behind the code of a number or a boolean. -/
def payload (code : UInt8) : Option ℕ :=
  if 15 ≤ code ∧ code < 23 then some ((code.toNat - 13) / 2)
  else if code = 23 then some 1
  else if code = 24 then some 4
  else none

/-- One value at the head of a string, and what is left behind it. A value that is not a
number or a boolean ends with the first quote from its fourth byte on, or has three bytes. -/
inductive TakesOneValue : GoString → GoString → Prop
  | number {b : UInt8} {bytes rest : GoString} :
      payload (b - 128) = some bytes.length → TakesOneValue (b :: (bytes ++ rest)) rest
  | quoted {b b₁ b₂ : UInt8} {text rest : GoString} : b - 128 < 26 → payload (b - 128) = none →
      34 ∉ text → TakesOneValue (b :: b₁ :: b₂ :: (text ++ 34 :: rest)) rest
  | short {b b₁ b₂ : UInt8} {rest : GoString} : b - 128 < 26 → payload (b - 128) = none →
      34 ∉ rest → TakesOneValue (b :: b₁ :: b₂ :: rest) rest

/-- The items of an array up to the byte that ends it. -/
inductive TakesItems : GoString → GoString → Prop
  | close {b : UInt8} {rest : GoString} : b = 93 ∨ b = 123 → TakesItems (b :: rest) rest
  | mark {b : UInt8} {s rest : GoString} :
      b = 91 ∨ b = 44 → TakesItems s rest → TakesItems (b :: s) rest
  | item {s s' rest : GoString} :
      TakesOneValue s s' → TakesItems s' rest → TakesItems s rest

/-- The value behind a key. -/
inductive TakesValue : GoString → GoString → Prop
  | one {s rest : GoString} : TakesOneValue s rest → TakesValue s rest
  | close {b : UInt8} {rest : GoString} : b = 93 ∨ b = 123 → TakesValue (b :: rest) rest
  | mark {b : UInt8} {s rest : GoString} :
      b = 91 ∨ b = 44 → TakesItems s rest → TakesValue (b :: s) rest

/-- One token of a message, for a list of paths of the given length. -/
inductive TakesToken (paths : ℕ) : GoString → GoString → Prop
  | byte {b : UInt8} {rest : GoString} : b < 128 → TakesToken paths (b :: rest) rest
  | code {b : UInt8} {rest : GoString} : 128 ≤ b → b ∉ [129, 130, 131, 132, 133] →
      TakesToken paths (b :: rest) rest
  | path {high low : UInt8} {rest : GoString} : high.toNat * 256 + low.toNat < paths →
      TakesToken paths (132 :: high :: low :: rest) rest
  | ts {b₀ b₁ b₂ b₃ : UInt8} {rest : GoString} :
      TakesToken paths (131 :: b₀ :: b₁ :: b₂ :: b₃ :: rest) rest
  | value {b : UInt8} {s rest : GoString} : b = 129 ∨ b = 130 ∨ b = 133 →
      TakesValue s rest → TakesToken paths (b :: s) rest

/-- A message that is tokens from its first to its last byte. -/
inductive Readable (paths : ℕ) : GoString → Prop
  | nil : Readable paths []
  | cons {s rest : GoString} : TakesToken paths s rest → Readable paths rest → Readable paths s

/-! ## One value -/

theorem codeList_nodup : codeList.Nodup := by decide

/-- The names of the code list tell its indexes apart. -/
theorem codeList_eq_iff {i j : ℕ} {name word : GoString} (hj : codeList[j]? = some name)
    (hi : codeList[i]? = some word) : name = word ↔ j = i := by
  obtain ⟨hjlt, hname⟩ := List.getElem?_eq_some_iff.mp hj
  obtain ⟨hilt, hword⟩ := List.getElem?_eq_some_iff.mp hi
  rw [← hname, ← hword]
  exact List.Nodup.getElem_inj_iff codeList_nodup

theorem codeList_isSome_iff {code : UInt8} : (codeList[code.toNat]?).isSome ↔ code < 26 := by
  have hlength : codeList.length = 26 := rfl
  rw [isSome_getElem?, hlength, UInt8.lt_iff_toNat_lt]
  rfl

theorem payload_cases {code : UInt8} {n : ℕ} (hn : payload code = some n) :
    (code = 15 ∨ code = 16) ∧ n = 1 ∨ (code = 17 ∨ code = 18) ∧ n = 2 ∨
      (code = 19 ∨ code = 20) ∧ n = 3 ∨ (code = 21 ∨ code = 22) ∧ n = 4 ∨
      code = 23 ∧ n = 1 ∨ code = 24 ∧ n = 4 := by
  unfold payload at hn
  simp only [← UInt8.toNat_inj, UInt8.le_iff_toNat_le, UInt8.lt_iff_toNat_lt,
    UInt8.reduceToNat] at hn ⊢
  split_ifs at hn
  all_goals
    simp only [Option.some.injEq] at hn
    omega

theorem decompressInt_eq (valueLead : GoString) (n : ℕ) (s : GoString) :
    ∃ value, decompressInt valueLead n s =
      if n + 1 ≤ s.length then some (value, n + 1) else none := by
  unfold decompressInt unsigned
  by_cases hn : n + 1 ≤ s.length
  · simp only [if_pos hn]
    exact ⟨_, rfl⟩
  · simp only [if_neg hn]
    exact ⟨[], rfl⟩

/-- The value of a number or a boolean is there when its bytes are. -/
theorem decompressOneValue_number (floats : Floats) {b : UInt8} {n : ℕ}
    (hn : payload (b - 128) = some n) (s : GoString) :
    ∃ value, decompressOneValue floats (b :: s) =
      if n + 1 ≤ (b :: s).length then some (value, n + 1) else none := by
  rw [decompressOneValue]
  simp only [List.getElem?_cons_zero, Option.bind_eq_bind, Option.bind_some]
  obtain ⟨hcode | hcode, rfl⟩ | ⟨hcode | hcode, rfl⟩ | ⟨hcode | hcode, rfl⟩ |
    ⟨hcode | hcode, rfl⟩ | ⟨hcode, rfl⟩ | ⟨hcode, rfl⟩ := payload_cases hn
  -- The codes 15 to 22 are the integers.
  iterate 8 exact hcode ▸ decompressInt_eq _ _ _
  · rw [hcode]
    cases s with
    | nil => exact ⟨[], rfl⟩
    | cons b₁ s =>
      refine ⟨if b₁ = 0 then str "\"false\"" else str "\"true\"", ?_⟩
      rw [if_pos (by simp)]
      rfl
  · rw [hcode]
    change ∃ value, (slice (b :: s) 1 5).bind _ = _
    unfold slice
    by_cases hlength : 4 + 1 ≤ (b :: s).length
    · simp only [if_pos hlength]
      rw [if_pos (by omega)]
      exact ⟨_, rfl⟩
    · simp only [if_neg hlength]
      rw [if_neg (by omega)]
      exact ⟨[], rfl⟩

/-- The default case of decompressOneValue. -/
theorem decompressOneValue_text (floats : Floats) {b : UInt8} (hlt : b - 128 < 26)
    (hn : payload (b - 128) = none) (s : GoString) :
    decompressOneValue floats (b :: s) = (do
      let rest ← sliceFrom (b :: s) 3
      let bytesRead := index rest (str "\"") + 4
      let value ← slice (b :: s) 1 bytesRead
      some (value, bytesRead.toNat)) := by
  obtain ⟨name, hname⟩ := Option.isSome_iff_exists.mp (codeList_isSome_iff.mpr hlt)
  have hne : ∀ i word, codeList[i]? = some word → (payload (UInt8.ofNat i)).isSome →
      ¬ name = word := by
    intro i word hword hi heq
    have hindex : (b - 128).toNat = i := (codeList_eq_iff hname hword).mp heq
    rw [← hindex, UInt8.ofNat_toNat, hn] at hi
    exact absurd hi (by decide)
  rw [decompressOneValue]
  simp only [List.getElem?_cons_zero, Option.bind_eq_bind, Option.bind_some, hname]
  rw [if_neg (hne 15 _ rfl rfl), if_neg (hne 16 _ rfl rfl), if_neg (hne 17 _ rfl rfl),
    if_neg (hne 18 _ rfl rfl), if_neg (hne 19 _ rfl rfl), if_neg (hne 20 _ rfl rfl),
    if_neg (hne 21 _ rfl rfl), if_neg (hne 22 _ rfl rfl), if_neg (hne 23 _ rfl rfl),
    if_neg (hne 24 _ rfl rfl)]

theorem decompressOneValue_quoted (floats : Floats) {b b₁ b₂ : UInt8} {text : GoString}
    (hlt : b - 128 < 26) (hn : payload (b - 128) = none) (htext : 34 ∉ text) (rest : GoString) :
    decompressOneValue floats (b :: b₁ :: b₂ :: (text ++ 34 :: rest)) =
      some (b₁ :: b₂ :: (text ++ [34]), text.length + 4) := by
  have hquote : str "\"" = [34] := rfl
  have hrest : sliceFrom (b :: b₁ :: b₂ :: (text ++ 34 :: rest)) 3 = some (text ++ 34 :: rest) :=
    slice_append [b, b₁, b₂] [] (by simp) rfl (by simp; omega)
  have hvalue : slice (b :: b₁ :: b₂ :: (text ++ 34 :: rest)) 1 (text.length + 4) =
      some (b₁ :: b₂ :: (text ++ [34])) :=
    slice_append [b] rest (by simp) rfl (by simp; omega)
  rw [decompressOneValue_text floats hlt hn, hquote, hrest]
  simp only [Option.bind_eq_bind, Option.bind_some, index_byte_append htext, hvalue]
  congr 2

theorem decompressOneValue_short (floats : Floats) {b b₁ b₂ : UInt8} {rest : GoString}
    (hlt : b - 128 < 26) (hn : payload (b - 128) = none) (hrest : 34 ∉ rest) :
    decompressOneValue floats (b :: b₁ :: b₂ :: rest) = some ([b₁, b₂], 3) := by
  have hquote : str "\"" = [34] := rfl
  have hbehind : sliceFrom (b :: b₁ :: b₂ :: rest) 3 = some rest :=
    slice_append [b, b₁, b₂] [] (by simp) rfl (by simp; omega)
  have hvalue : slice (b :: b₁ :: b₂ :: rest) 1 3 = some [b₁, b₂] :=
    slice_append [b] rest (by simp) rfl rfl
  rw [decompressOneValue_text floats hlt hn, hquote, hbehind]
  simp only [Option.bind_eq_bind, Option.bind_some, index_byte_of_notMem hrest]
  rw [show (-1 + 4 : ℤ) = 3 from rfl, hvalue]
  rfl

/-- A token at the head of s is read, and rest is left behind it. -/
def Leaves (read : MayPanic (GoString × ℕ)) (s rest : GoString) : Prop :=
  ∃ value n, read = some (value, n) ∧ 0 < n ∧ n ≤ s.length ∧ s.drop n = rest

theorem TakesOneValue.leaves (floats : Floats) {s rest : GoString} (h : TakesOneValue s rest) :
    Leaves (decompressOneValue floats s) s rest := by
  cases h with
  | @number b bytes _ hn =>
    obtain ⟨value, hvalue⟩ := decompressOneValue_number floats hn (bytes ++ rest)
    have hlength : bytes.length + 1 ≤ (b :: (bytes ++ rest)).length := by simp
    rw [if_pos hlength] at hvalue
    exact ⟨value, _, hvalue, by omega, hlength, by simp⟩
  | @quoted b b₁ b₂ text _ hlt hn htext =>
    exact ⟨_, _, decompressOneValue_quoted floats hlt hn htext rest, by omega, by simp,
      by simp⟩
  | short hlt hn hrest =>
    exact ⟨_, _, decompressOneValue_short floats hlt hn hrest, by omega, by simp, rfl⟩

theorem takesOneValue_of_some {floats : Floats} {s value : GoString} {n : ℕ}
    (h : decompressOneValue floats s = some (value, n)) :
    TakesOneValue s (s.drop n) ∧ 0 < n ∧ n ≤ s.length := by
  cases s with
  | nil => cases h
  | cons b s =>
    have hlt : b - 128 < 26 := by
      rw [← codeList_isSome_iff]
      by_contra hnone
      rw [Option.not_isSome_iff_eq_none] at hnone
      simp [decompressOneValue, hnone] at h
    cases hn : payload (b - 128) with
    | some m =>
      obtain ⟨v, hv⟩ := decompressOneValue_number floats hn s
      rw [hv] at h
      split at h
      · next hlength =>
        simp only [Option.some.injEq, Prod.mk.injEq] at h
        obtain ⟨-, rfl⟩ := h
        have htake : (s.take m).length = m := by
          rw [List.length_take]
          simp only [List.length_cons] at hlength
          omega
        have hnumber : TakesOneValue (b :: (s.take m ++ s.drop m)) (s.drop m) :=
          .number (by rw [htake, hn])
        rw [List.take_append_drop] at hnumber
        exact ⟨hnumber, by omega, hlength⟩
      · cases h
    | none =>
      obtain _ | ⟨b₁, _ | ⟨b₂, t⟩⟩ := s
      · rw [decompressOneValue_text floats hlt hn] at h
        cases h
      · rw [decompressOneValue_text floats hlt hn] at h
        cases h
      · by_cases hquote : 34 ∈ t
        · obtain ⟨text, rest, rfl, htext⟩ := List.eq_append_cons_of_mem hquote
          rw [decompressOneValue_quoted floats hlt hn htext] at h
          simp only [Option.some.injEq, Prod.mk.injEq] at h
          obtain ⟨-, rfl⟩ := h
          have hdrop : (b :: b₁ :: b₂ :: (text ++ 34 :: rest)).drop (text.length + 4) = rest := by
            simp
          refine ⟨?_, by omega, by simp⟩
          rw [hdrop]
          exact .quoted hlt hn htext
        · rw [decompressOneValue_short floats hlt hn hquote] at h
          simp only [Option.some.injEq, Prod.mk.injEq] at h
          obtain ⟨-, rfl⟩ := h
          exact ⟨.short hlt hn hquote, by omega, by simp⟩

/-! ## Arrays -/

/-- The byte is a bracket, a comma or an opening brace. -/
def IsMark (b : UInt8) : Prop := b = 91 ∨ b = 93 ∨ b = 44 ∨ b = 123

theorem not_isMark {b : UInt8} (hopen : ¬ (b = 91 ∨ b = 44)) (hclose : ¬ (b = 93 ∨ b = 123)) :
    ¬ IsMark b := by
  intro hmark
  obtain h91 | h93 | h44 | h123 := hmark
  · exact hopen (.inl h91)
  · exact hclose (.inl h93)
  · exact hopen (.inr h44)
  · exact hclose (.inr h123)

theorem TakesOneValue.not_mark {b : UInt8} {s rest : GoString} (h : TakesOneValue (b :: s) rest) :
    ¬ IsMark b := by
  have hcode : ∀ c : UInt8, IsMark c → ¬ c - 128 < 26 ∧ payload (c - 128) = none := by
    intro c hc
    obtain rfl | rfl | rfl | rfl := hc
    all_goals decide
  intro hb
  obtain ⟨hge, hpayload⟩ := hcode b hb
  cases h with
  | number hn =>
    rw [hpayload] at hn
    cases hn
  | quoted hlt => exact hge hlt
  | short hlt => exact hge hlt

theorem drop_eq_cons {s t : GoString} {b : UInt8} {index : ℕ} (h : s.drop index = b :: t) :
    s[index]? = some b ∧ s.drop (index + 1) = t ∧ index < s.length := by
  have hlt : index < s.length := by
    by_contra hge
    rw [List.drop_of_length_le (by omega)] at h
    cases h
  rw [List.drop_eq_getElem_cons hlt] at h
  obtain ⟨hb, ht⟩ := List.cons.inj h
  exact ⟨by rw [List.getElem?_eq_getElem hlt, hb], ht, hlt⟩

theorem drop_of_getElem? {s : GoString} {b : UInt8} {index : ℕ} (h : s[index]? = some b) :
    s.drop index = b :: s.drop (index + 1) ∧ index < s.length := by
  obtain ⟨hlt, hb⟩ := List.getElem?_eq_some_iff.mp h
  exact ⟨by rw [List.drop_eq_getElem_cons hlt, hb], hlt⟩

section Steps

variable {floats : Floats} {s : GoString} {fuel index : ℕ} {c : UInt8}

theorem decompressValueFrom_close (hindex : s[index]? = some c) (hc : c = 93 ∨ c = 123) :
    decompressValueFrom floats s (fuel + 1) index = some ([c], index + 1) := by
  have hmark : c = 91 ∨ c = 93 ∨ c = 44 ∨ c = 123 := hc.elim (fun h => .inr (.inl h)) fun h =>
    .inr (.inr (.inr h))
  rw [decompressValueFrom, hindex]
  simp only [Option.bind_eq_bind, Option.bind_some]
  rw [if_pos hmark, if_pos hc]

theorem decompressValueFrom_mark (hindex : s[index]? = some c) (hc : c = 91 ∨ c = 44) :
    decompressValueFrom floats s (fuel + 1) index =
      (decompressValueFrom floats s fuel (index + 1)).map fun r => (c :: r.1, r.2) := by
  have hmark : c = 91 ∨ c = 93 ∨ c = 44 ∨ c = 123 := hc.elim .inl fun h => .inr (.inr (.inl h))
  have hopen : ¬ (c = 93 ∨ c = 123) := by
    obtain rfl | rfl := hc
    all_goals decide
  rw [decompressValueFrom, hindex]
  simp only [Option.bind_eq_bind, Option.bind_some]
  rw [if_pos hmark, if_neg hopen]
  cases decompressValueFrom floats s fuel (index + 1) <;> rfl

/-- A value, and the comma behind it where a value of the same code follows. -/
theorem decompressValueFrom_item (hindex : s[index]? = some c) (hc : ¬ IsMark c) :
    decompressValueFrom floats s (fuel + 1) index =
      (decompressOneValue floats (s.drop index)).bind fun r =>
        let value := r.1 ++ (if s[index + r.2]? = some c then [44] else [])
        if index = 0 then some (value, r.2)
        else (decompressValueFrom floats s fuel (index + r.2)).map fun r' =>
          (value ++ r'.1, r'.2) := by
  unfold IsMark at hc
  rw [decompressValueFrom, hindex]
  simp only [Option.bind_eq_bind, Option.bind_some]
  rw [if_neg hc]
  cases decompressOneValue floats (s.drop index) with
  | none => rfl
  | some r =>
    obtain ⟨value, n⟩ := r
    simp only [Option.bind_some]
    split
    · rfl
    · cases decompressValueFrom floats s fuel (index + n) <;> rfl

end Steps

/-- The items of an array are read up to its end, from any index behind the first. -/
theorem TakesItems.decompress (floats : Floats) {s t rest : GoString} (h : TakesItems t rest) :
    ∀ fuel index, 0 < index → s.drop index = t → t.length < fuel →
      ∃ value n, decompressValueFrom floats s fuel index = some (value, n) ∧
        index < n ∧ n ≤ s.length ∧ s.drop n = rest := by
  induction h with
  | @close b rest hb =>
    intro fuel index _ hdrop hfuel
    obtain ⟨hindex, hrest, hlt⟩ := drop_eq_cons hdrop
    obtain ⟨fuel, rfl⟩ := Nat.exists_eq_add_of_le' hfuel
    exact ⟨_, _, decompressValueFrom_close hindex hb, by omega, by omega, hrest⟩
  | @mark b t rest hb _ ih =>
    intro fuel index hpos hdrop hfuel
    obtain ⟨hindex, ht, hlt⟩ := drop_eq_cons hdrop
    obtain _ | fuel := fuel
    · omega
    simp only [List.length_cons] at hfuel
    obtain ⟨value, n, hvalue, hn, hle, hrest⟩ := ih fuel (index + 1) (by omega) ht (by omega)
    refine ⟨b :: value, n, ?_, by omega, hle, hrest⟩
    rw [decompressValueFrom_mark hindex hb, hvalue]
    rfl
  | @item t t' rest ht _ ih =>
    intro fuel index hpos hdrop hfuel
    obtain _ | fuel := fuel
    · omega
    obtain ⟨value, m, hone, hm, hmle, hmdrop⟩ := ht.leaves floats
    obtain _ | ⟨b, t⟩ := t
    · simp only [List.length_nil] at hmle
      omega
    obtain ⟨hindex, -, hlt⟩ := drop_eq_cons hdrop
    have hnext : s.drop (index + m) = t' := by rw [← List.drop_drop, hdrop, hmdrop]
    have hlength : t'.length + m = (b :: t).length := by
      rw [← hmdrop, List.length_drop]
      omega
    obtain ⟨value', n, hvalue, hn, hle, hrest⟩ :=
      ih fuel (index + m) (by omega) hnext (by omega)
    rw [decompressValueFrom_item hindex ht.not_mark, hdrop, hone]
    simp only [Option.bind_some]
    rw [if_neg (by omega), hvalue]
    exact ⟨_, n, rfl, by omega, hle, hrest⟩

theorem takesItems_of_some {floats : Floats} {s value : GoString} {fuel index n : ℕ}
    (hpos : 0 < index) (h : decompressValueFrom floats s fuel index = some (value, n)) :
    TakesItems (s.drop index) (s.drop n) ∧ index < n ∧ n ≤ s.length := by
  induction fuel generalizing index value with
  | zero => cases h
  | succ fuel ih =>
    cases hindex : s[index]? with
    | none => simp [decompressValueFrom, hindex] at h
    | some c =>
      obtain ⟨hdrop, hlt⟩ := drop_of_getElem? hindex
      by_cases hclose : c = 93 ∨ c = 123
      · rw [decompressValueFrom_close hindex hclose] at h
        simp only [Option.some.injEq, Prod.mk.injEq] at h
        obtain ⟨-, rfl⟩ := h
        exact ⟨hdrop ▸ .close hclose, by omega, by omega⟩
      by_cases hopen : c = 91 ∨ c = 44
      · rw [decompressValueFrom_mark hindex hopen, Option.map_eq_some_iff] at h
        obtain ⟨⟨v, m⟩, hrest, heq⟩ := h
        simp only [Prod.mk.injEq] at heq
        obtain ⟨-, rfl⟩ := heq
        obtain ⟨htakes, hn, hle⟩ := ih (by omega) hrest
        exact ⟨hdrop ▸ .mark hopen htakes, by omega, hle⟩
      · have hmark : ¬ IsMark c := not_isMark hopen hclose
        rw [decompressValueFrom_item hindex hmark, Option.bind_eq_some_iff] at h
        obtain ⟨⟨v, m⟩, hone, h⟩ := h
        rw [if_neg (by omega), Option.map_eq_some_iff] at h
        obtain ⟨⟨v', n'⟩, hrest, heq⟩ := h
        simp only [Prod.mk.injEq] at heq
        obtain ⟨-, rfl⟩ := heq
        obtain ⟨hone, hm, hmle⟩ := takesOneValue_of_some hone
        obtain ⟨htakes, hn, hle⟩ := ih (by omega) hrest
        rw [List.drop_drop] at hone
        exact ⟨.item hone htakes, by omega, hle⟩

theorem TakesValue.leaves (floats : Floats) {s rest : GoString} (h : TakesValue s rest) :
    Leaves (decompressValue floats s) s rest := by
  unfold decompressValue
  cases h with
  | one hone =>
    obtain ⟨value, n, hvalue, hn, hle, hrest⟩ := hone.leaves floats
    obtain _ | ⟨b, t⟩ := s
    · simp only [List.length_nil] at hle
      omega
    rw [decompressValueFrom_item rfl hone.not_mark, List.drop_zero, hvalue]
    exact ⟨_, n, rfl, hn, hle, hrest⟩
  | @close b _ hb => exact ⟨_, 1, decompressValueFrom_close rfl hb, by omega, by simp, rfl⟩
  | @mark b t _ hb hitems =>
    obtain ⟨value, n, hvalue, hn, hle, hrest⟩ := hitems.decompress floats
      (s := b :: t) (b :: t).length 1 (by omega) rfl (by simp)
    rw [decompressValueFrom_mark rfl hb, hvalue]
    exact ⟨_, n, rfl, by omega, hle, hrest⟩

theorem takesValue_of_some {floats : Floats} {s value : GoString} {n : ℕ}
    (h : decompressValue floats s = some (value, n)) :
    TakesValue s (s.drop n) ∧ 0 < n ∧ n ≤ s.length := by
  unfold decompressValue at h
  obtain _ | ⟨c, t⟩ := s
  · cases h
  have hindex : (c :: t)[0]? = some c := rfl
  by_cases hclose : c = 93 ∨ c = 123
  · rw [decompressValueFrom_close hindex hclose] at h
    simp only [Option.some.injEq, Prod.mk.injEq] at h
    obtain ⟨-, rfl⟩ := h
    exact ⟨.close hclose, by omega, by simp⟩
  by_cases hopen : c = 91 ∨ c = 44
  · rw [decompressValueFrom_mark hindex hopen, Option.map_eq_some_iff] at h
    obtain ⟨⟨v, m⟩, hrest, heq⟩ := h
    simp only [Prod.mk.injEq] at heq
    obtain ⟨-, rfl⟩ := heq
    obtain ⟨htakes, hn, hle⟩ := takesItems_of_some (by omega) hrest
    exact ⟨.mark hopen htakes, by omega, hle⟩
  · have hmark : ¬ IsMark c := not_isMark hopen hclose
    rw [decompressValueFrom_item hindex hmark, List.drop_zero, Option.bind_eq_some_iff] at h
    obtain ⟨⟨v, m⟩, hone, h⟩ := h
    simp only [if_pos, Option.some.injEq, Prod.mk.injEq] at h
    obtain ⟨-, rfl⟩ := h
    obtain ⟨hone, hm, hmle⟩ := takesOneValue_of_some hone
    exact ⟨.one hone, hm, hmle⟩

/-! ## Tokens and messages -/

theorem keyword_isSome (code : UInt8) : (keyword code).isSome := by
  unfold keyword
  by_cases hcode : code < codeListKeyValues
  · have hlt : code < 26 := UInt8.lt_trans hcode (by decide)
    obtain ⟨word, hword⟩ := Option.isSome_iff_exists.mp (codeList_isSome_iff.mpr hlt)
    rw [if_pos hcode, hword]
    rfl
  · rw [if_neg hcode]
    rfl

/-- The bytes on both sides of offset are in the message, where offset is not its end. -/
theorem codeComma_isSome {message : GoString} {offset : ℕ} (code : UInt8)
    (hle : offset ≤ message.length) : (codeComma message code offset).isSome := by
  unfold codeComma
  split
  · next h =>
    have hlt : offset < message.length := lt_of_le_of_ne hle h.2.2.2.2
    have hlt' : offset - 1 < message.length := by omega
    rw [List.getElem?_eq_getElem hlt, List.getElem?_eq_getElem hlt']
    rfl
  · rfl

theorem operand_path {floats : Floats} {pathList : List GoString} {b : UInt8} {t : GoString}
    (hb : b = 132) : operand floats pathList (b - 128) t =
      (decompressPath pathList t).map fun path => (path, 3) := by
  subst hb
  cases hpath : decompressPath pathList t <;> simp [operand, codeListIndexPath, hpath]

theorem operand_ts {floats : Floats} {pathList : List GoString} {b : UInt8} {t : GoString}
    (hb : b = 131) : operand floats pathList (b - 128) t =
      (decompressTs t).map fun ts => (ts, 5) := by
  subst hb
  have hts : getCodeListIndex (str "ts") = 3 := by decide
  cases h : decompressTs t <;> simp [operand, codeListIndexPath, hts, h]

theorem operand_value {floats : Floats} {pathList : List GoString} {b : UInt8} {t : GoString}
    (hb : b = 129 ∨ b = 130 ∨ b = 133) : operand floats pathList (b - 128) t =
      (decompressValue floats t).map fun r => (r.1, 1 + r.2) := by
  have hts : getCodeListIndex (str "ts") = 3 := by decide
  obtain rfl | rfl | rfl := hb
  all_goals
    cases h : decompressValue floats t <;>
      simp [operand, codeListIndexPath, codeListIndexValue, codeListIndexReqId,
        codeListIndexSubId, hts, h]

theorem operand_other {floats : Floats} {pathList : List GoString} {b : UInt8} {t : GoString}
    (hb : b ∉ [129, 130, 131, 132, 133]) :
    operand floats pathList (b - 128) t = some ([], 1) := by
  have hts : getCodeListIndex (str "ts") = 3 := by decide
  have hcode : ∀ code : UInt8, b - 128 = code → b = code + 128 := by
    intro code h
    grind
  simp only [List.mem_cons, List.not_mem_nil, or_false, not_or] at hb
  obtain ⟨hreqId, hvalue, htsCode, hpath, hsubId⟩ := hb
  rw [operand, if_neg (fun h => hpath (hcode _ h)), hts, if_neg (fun h => htsCode (hcode _ h)),
    if_neg]
  intro h
  obtain h | h | h := h
  · exact hvalue (hcode _ h)
  · exact hreqId (hcode _ h)
  · exact hsubId (hcode _ h)

theorem decompressPath_isSome_iff {pathList : List GoString} {index : GoString} :
    (decompressPath pathList index).isSome ↔ ∃ high low rest,
      index = high :: low :: rest ∧ high.toNat * 256 + low.toNat < pathList.length := by
  obtain _ | ⟨high, _ | ⟨low, rest⟩⟩ := index
  · simp [decompressPath]
  · simp [decompressPath]
  · cases hpath : pathList[high.toNat * 256 + low.toNat]? with
    | none =>
      rw [List.getElem?_eq_none_iff] at hpath
      simp only [decompressPath, List.getElem?_cons_zero, List.getElem?_cons_succ,
        Option.bind_eq_bind, Option.bind_some, List.getElem?_eq_none hpath, Option.bind_none,
        Option.isSome_none, Bool.false_eq_true, false_iff, not_exists]
      intro h l r h'
      obtain ⟨heq, hlt⟩ := h'
      simp only [List.cons.injEq] at heq
      obtain ⟨rfl, rfl, -⟩ := heq
      omega
    | some path =>
      obtain ⟨hlt, -⟩ := List.getElem?_eq_some_iff.mp hpath
      simp only [decompressPath, List.getElem?_cons_zero, List.getElem?_cons_succ,
        Option.bind_eq_bind, Option.bind_some, hpath, Option.isSome_some, true_iff]
      exact ⟨high, low, rest, rfl, hlt⟩

theorem decompressTs_isSome_iff {ts : GoString} :
    (decompressTs ts).isSome ↔ ∃ b₀ b₁ b₂ b₃ rest, ts = b₀ :: b₁ :: b₂ :: b₃ :: rest := by
  obtain _ | ⟨b₀, _ | ⟨b₁, _ | ⟨b₂, _ | ⟨b₃, rest⟩⟩⟩⟩ := ts
  all_goals simp [decompressTs]

section Tokens

variable {floats : Floats} {pathList : List GoString} {message : GoString} {offset : ℕ}

theorem readCompressedMessage_byte {b : UInt8} (hb : message[offset]? = some b) (hlt : b < 128) :
    readCompressedMessage floats pathList message offset =
      some (b :: (if b = 125 ∧ message[offset + 1]? = some 123 then [44] else []), 1) := by
  have hcode : ¬ 128 ≤ b := UInt8.not_le.mpr hlt
  simp only [readCompressedMessage, hb, Option.bind_eq_bind, Option.bind_some, if_neg hcode]

theorem readCompressedMessage_code {b : UInt8} {value : GoString} {n : ℕ}
    (hb : message[offset]? = some b) (hge : 128 ≤ b)
    (hvalue : operand floats pathList (b - 128) (message.drop (offset + 1)) = some (value, n)) :
    readCompressedMessage floats pathList message offset =
      (keyword (b - 128)).bind fun word =>
        (codeComma message (b - 128) (offset + n)).map fun comma =>
          (word ++ value ++ comma, n) := by
  simp only [readCompressedMessage, hb, Option.bind_eq_bind, Option.bind_some, if_pos hge, hvalue]
  cases keyword (b - 128) with
  | none => rfl
  | some word =>
    cases codeComma message (b - 128) (offset + n) <;> rfl

/-- What a code takes is there in every token of the grammar. -/
theorem TakesToken.operand {b : UInt8} {t rest : GoString} (hge : 128 ≤ b)
    (h : TakesToken pathList.length (b :: t) rest) :
    Leaves (operand floats pathList (b - 128) t) (b :: t) rest := by
  cases h with
  | byte hlt => exact absurd hge (UInt8.not_le.mpr hlt)
  | code _ hb => exact ⟨_, 1, operand_other hb, by omega, by simp, rfl⟩
  | @path high low _ hlt =>
    obtain ⟨path, hpath⟩ := Option.isSome_iff_exists.mp
      (decompressPath_isSome_iff.mpr ⟨high, low, rest, rfl, hlt⟩)
    refine ⟨path, 3, ?_, by omega, by simp, rfl⟩
    rw [operand_path rfl, hpath, Option.map_some]
  | @ts b₀ b₁ b₂ b₃ _ =>
    obtain ⟨ts, hts⟩ := Option.isSome_iff_exists.mp
      (decompressTs_isSome_iff.mpr ⟨b₀, b₁, b₂, b₃, rest, rfl⟩)
    refine ⟨ts, 5, ?_, by omega, by simp, rfl⟩
    rw [operand_ts rfl, hts, Option.map_some]
  | value hkey hvalue =>
    obtain ⟨value, n, hread, hn, hle, hrest⟩ := hvalue.leaves floats
    refine ⟨value, 1 + n, ?_, by omega, by simp; omega, ?_⟩
    · rw [operand_value hkey, hread, Option.map_some]
    · rw [Nat.add_comm, List.drop_succ_cons, hrest]

theorem takesToken_of_operand {b : UInt8} {t value : GoString} {n : ℕ} (hge : 128 ≤ b)
    (h : operand floats pathList (b - 128) t = some (value, n)) :
    TakesToken pathList.length (b :: t) ((b :: t).drop n) ∧ 0 < n ∧ n ≤ (b :: t).length := by
  by_cases hpath : b = 132
  · rw [operand_path hpath, Option.map_eq_some_iff] at h
    obtain ⟨path, hpath', heq⟩ := h
    simp only [Prod.mk.injEq] at heq
    obtain ⟨-, rfl⟩ := heq
    obtain ⟨high, low, rest, rfl, hlt⟩ :=
      decompressPath_isSome_iff.mp (Option.isSome_of_eq_some hpath')
    exact ⟨hpath ▸ .path hlt, by omega, by simp⟩
  by_cases hts : b = 131
  · rw [operand_ts hts, Option.map_eq_some_iff] at h
    obtain ⟨ts, hts', heq⟩ := h
    simp only [Prod.mk.injEq] at heq
    obtain ⟨-, rfl⟩ := heq
    obtain ⟨b₀, b₁, b₂, b₃, rest, rfl⟩ :=
      decompressTs_isSome_iff.mp (Option.isSome_of_eq_some hts')
    exact ⟨hts ▸ .ts, by omega, by simp⟩
  by_cases hkey : b = 129 ∨ b = 130 ∨ b = 133
  · rw [operand_value hkey, Option.map_eq_some_iff] at h
    obtain ⟨⟨v, m⟩, hvalue, heq⟩ := h
    simp only [Prod.mk.injEq] at heq
    obtain ⟨-, rfl⟩ := heq
    obtain ⟨htakes, hm, hle⟩ := takesValue_of_some hvalue
    refine ⟨?_, by omega, by simp; omega⟩
    rw [Nat.add_comm, List.drop_succ_cons]
    exact .value hkey htakes
  · have hb : b ∉ [129, 130, 131, 132, 133] := by
      simp only [List.mem_cons, List.not_mem_nil, or_false, not_or] at hkey ⊢
      exact ⟨hkey.1, hkey.2.1, hts, hpath, hkey.2.2⟩
    rw [operand_other hb] at h
    simp only [Option.some.injEq, Prod.mk.injEq] at h
    obtain ⟨-, rfl⟩ := h
    exact ⟨.code hge hb, by omega, by simp⟩

theorem TakesToken.leaves {s rest : GoString} (h : TakesToken pathList.length s rest)
    (hdrop : message.drop offset = s) :
    Leaves (readCompressedMessage floats pathList message offset) s rest := by
  obtain _ | ⟨b, t⟩ := s
  · cases h
  obtain ⟨hb, ht, hlt⟩ := drop_eq_cons hdrop
  by_cases hge : 128 ≤ b
  · obtain ⟨value, n, hvalue, hn, hle, hrest⟩ := h.operand hge
    have hlength : (b :: t).length + offset = message.length := by
      rw [← hdrop, List.length_drop]
      omega
    obtain ⟨word, hword⟩ := Option.isSome_iff_exists.mp (keyword_isSome (b - 128))
    have hbehind : offset + n ≤ message.length := by omega
    obtain ⟨comma, hcomma⟩ := Option.isSome_iff_exists.mp (codeComma_isSome (b - 128) hbehind)
    refine ⟨word ++ value ++ comma, n, ?_, hn, hle, hrest⟩
    rw [readCompressedMessage_code hb hge (ht.symm ▸ hvalue), hword, Option.bind_some, hcomma,
      Option.map_some]
  · have hbyte : b < 128 := UInt8.not_le.mp hge
    have hrest : t = rest := by
      cases h with
      | byte => rfl
      | code hcode => exact absurd hcode hge
      | path => exact absurd (by decide) hge
      | ts => exact absurd (by decide) hge
      | value hkey =>
        obtain rfl | rfl | rfl := hkey
        all_goals exact absurd (by decide) hge
    exact ⟨_, 1, readCompressedMessage_byte hb hbyte, by omega, by simp, hrest⟩

theorem takesToken_of_some {value : GoString} {n : ℕ}
    (h : readCompressedMessage floats pathList message offset = some (value, n)) :
    TakesToken pathList.length (message.drop offset) (message.drop (offset + n)) ∧
      0 < n ∧ offset + n ≤ message.length := by
  cases hb : message[offset]? with
  | none => simp [readCompressedMessage, hb] at h
  | some b =>
    obtain ⟨hdrop, hlt⟩ := drop_of_getElem? hb
    by_cases hge : 128 ≤ b
    · cases hvalue : operand floats pathList (b - 128) (message.drop (offset + 1)) with
      | none =>
        obtain ⟨word, hword⟩ := Option.isSome_iff_exists.mp (keyword_isSome (b - 128))
        simp [readCompressedMessage, hb, hge, hvalue, hword] at h
      | some r =>
        obtain ⟨v, m⟩ := r
        rw [readCompressedMessage_code hb hge hvalue, Option.bind_eq_some_iff] at h
        obtain ⟨word, -, h⟩ := h
        obtain ⟨comma, -, heq⟩ := Option.map_eq_some_iff.mp h
        simp only [Prod.mk.injEq] at heq
        obtain ⟨-, rfl⟩ := heq
        obtain ⟨htakes, hm, hle⟩ := takesToken_of_operand hge hvalue
        rw [← hdrop, List.drop_drop] at htakes
        rw [List.length_cons, List.length_drop] at hle
        exact ⟨htakes, hm, by omega⟩
    · rw [readCompressedMessage_byte hb (UInt8.not_le.mp hge)] at h
      simp only [Option.some.injEq, Prod.mk.injEq] at h
      obtain ⟨-, rfl⟩ := h
      exact ⟨hdrop ▸ .byte (UInt8.not_le.mp hge), by omega, by omega⟩

/-- The loop of DecompressMessage comes to its end on the readable messages. -/
theorem decompressFrom_isSome_iff {fuel : ℕ} (hfuel : message.length ≤ fuel + offset) :
    (decompressFrom floats pathList message fuel offset).isSome ↔
      Readable pathList.length (message.drop offset) := by
  induction fuel generalizing offset with
  | zero =>
    rw [decompressFrom, if_neg (by omega), List.drop_of_length_le (by omega)]
    simp only [Option.isSome_some, true_iff]
    exact .nil
  | succ fuel ih =>
    rw [decompressFrom]
    by_cases hlt : offset < message.length
    · rw [if_pos hlt]
      constructor
      · intro h
        cases hread : readCompressedMessage floats pathList message offset with
        | none => simp [hread] at h
        | some r =>
          obtain ⟨token, n⟩ := r
          obtain ⟨htakes, hn, hle⟩ := takesToken_of_some hread
          refine .cons htakes ((ih (by omega)).mp ?_)
          cases hrest : decompressFrom floats pathList message fuel (offset + n) with
          | none => simp [hread, hrest] at h
          | some text => rfl
      · intro h
        generalize hdrop : message.drop offset = s at h
        cases h with
        | nil =>
          rw [List.drop_eq_nil_iff] at hdrop
          omega
        | @cons _ rest htakes hrest =>
          have hleaves : Leaves (readCompressedMessage floats pathList message offset) _ rest :=
            htakes.leaves hdrop
          obtain ⟨token, n, hread, hn, hle, hbehind⟩ := hleaves
          have hdrop' : message.drop (offset + n) = rest := by
            rw [← List.drop_drop, hdrop, hbehind]
          have hfuel' : message.length ≤ fuel + (offset + n) := by omega
          obtain ⟨text, htext⟩ := Option.isSome_iff_exists.mp ((ih hfuel').mpr (hdrop' ▸ hrest))
          simp [hread, htext]
    · rw [if_neg hlt, List.drop_of_length_le (by omega)]
      simp only [Option.isSome_some, true_iff]
      exact .nil

/-- DecompressMessage reads a message to its end, and not outside of it, the code list or the
path list, if and only if the message is of the grammar. More passes of its loops than the
message has bytes make no difference. -/
theorem decompress_total_iff (floats : Floats) (pathList : List GoString) (message : GoString)
    {fuel : ℕ} (hfuel : message.length ≤ fuel) :
    (decompressWithin floats pathList fuel message).isSome ↔
      Readable pathList.length message := by
  unfold decompressWithin
  by_cases hmessage : message = []
  · rw [if_pos hmessage, hmessage]
    simp only [Option.isSome_some, true_iff]
    exact .nil
  · have hiff : (decompressFrom floats pathList message fuel 0).isSome ↔
        Readable pathList.length (message.drop 0) := decompressFrom_isSome_iff (by omega)
    rw [if_neg hmessage, ← List.drop_zero (l := message), ← hiff, List.drop_zero]
    cases decompressFrom floats pathList message fuel 0 <;> simp

end Tokens

/-- The conversions on texts that are no floating-point numbers, and on the number 0. -/
def sampleFloats : Floats where
  parseFloat _ := none
  sprintf _ := str "0.000000"

/-- The get request for the only path of the list, with the request id 7. -/
theorem decompress_total_get : (decompressWithin sampleFloats [str "Vehicle.Speed"] 8
    [128, 138, 132, 0, 0, 129, 144, 7]).isSome := by
  have hpayload : payload (144 - 128) = some [(7 : UInt8)].length := by decide
  have hvalue : TakesValue [144, 7] [] := .one (.number hpayload)
  have hread : Readable 1 [128, 138, 132, 0, 0, 129, 144, 7] :=
    .cons (.code (by decide) (by decide)) <| .cons (.code (by decide) (by decide)) <|
      .cons (.path (by decide)) <| .cons (.value (.inl rfl) hvalue) .nil
  exact (decompress_total_iff sampleFloats [str "Vehicle.Speed"] _ (by decide)).mpr hread

/-- The code of a path without its index is read past the end of the message. -/
theorem decompress_stops : ¬ ∀ floats pathList message, ∃ fuel,
    (decompressWithin floats pathList fuel message).isSome := by
  intro h
  obtain ⟨fuel, hfuel⟩ := h sampleFloats [str "Vehicle.Speed"] [132]
  cases fuel with
  | zero => exact absurd hfuel (by decide)
  | succ fuel => exact absurd hfuel (by simp [decompressWithin, decompressFrom,
      readCompressedMessage, keyword, operand, decompressPath, codeListIndexPath])

end VissServer.Utils
