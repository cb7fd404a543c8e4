import Mathlib.Data.List.Chain
import VissServer.Go.JsonDecode
import VissServer.Utils.Compressing

/-!
What DecompressMessage makes of the bytes of a flat message, and the round trip of messages
through CompressMessage and DecompressMessage.
-/
namespace VissServer.Utils

open VissServer.Go

section Tokens

variable {floats : Floats} {pathList : List GoString} {message : GoString} {offset : ℕ}

/-- The loop writes the text on its way from one offset to another. -/
def Emits (floats : Floats) (pathList : List GoString) (message : GoString) (offset : ℕ)
    (text : GoString) (offset' : ℕ) : Prop :=
  ∃ k, offset + k ≤ offset' ∧ ∀ fuel, decompressFrom floats pathList message (fuel + k) offset =
    (decompressFrom floats pathList message fuel offset').map (text ++ ·)

theorem Emits.refl : Emits floats pathList message offset [] offset := by
  refine ⟨0, le_rfl, fun fuel => ?_⟩
  cases decompressFrom floats pathList message fuel offset <;> simp

theorem Emits.trans {offset₁ offset₂ : ℕ} {text₁ text₂ : GoString}
    (h₁ : Emits floats pathList message offset text₁ offset₁)
    (h₂ : Emits floats pathList message offset₁ text₂ offset₂) :
    Emits floats pathList message offset (text₁ ++ text₂) offset₂ := by
  obtain ⟨k₁, hk₁, hrun₁⟩ := h₁
  obtain ⟨k₂, hk₂, hrun₂⟩ := h₂
  refine ⟨k₂ + k₁, by omega, fun fuel => ?_⟩
  rw [← Nat.add_assoc, hrun₁, hrun₂, Option.map_map]
  congr 1
  funext rest
  simp

theorem Emits.token {text : GoString} {n : ℕ} (hn : 0 < n)
    (hread : readCompressedMessage floats pathList message offset = some (text, n)) :
    Emits floats pathList message offset text (offset + n) := by
  have hlt : offset < message.length := by
    have h := takesToken_of_some hread
    omega
  refine ⟨1, by omega, fun fuel => ?_⟩
  rw [decompressFrom, if_pos hlt, hread]
  simp only [Option.bind_eq_bind, Option.bind_some]
  cases decompressFrom floats pathList message fuel (offset + n) <;> rfl

/-- The text of a message that is read to its end. -/
theorem Emits.all {text : GoString} (h : Emits floats pathList message 0 text message.length) :
    decompressFrom floats pathList message message.length 0 = some text := by
  obtain ⟨k, hk, hrun⟩ := h
  obtain ⟨fuel, hfuel⟩ := Nat.exists_eq_add_of_le (show k ≤ message.length by omega)
  rw [Nat.add_comm] at hfuel
  have hend : decompressFrom floats pathList message fuel message.length = some [] := by
    cases fuel <;> rw [decompressFrom, if_neg (lt_irrefl _)]
  conv_lhs =>
    arg 4
    rw [hfuel]
  rw [hrun, hend, Option.map_some, List.append_nil]

/-- The text of a message that is read to its end, between braces. -/
theorem Emits.decompressMessage {text : GoString} (hne : message ≠ [])
    (hfirst : message.head? ≠ some 123) (hlast : message.getLast? ≠ some 125)
    (h : Emits floats pathList message 0 text message.length) :
    decompressMessage floats pathList message = some (123 :: (text ++ [125])) := by
  rw [Utils.decompressMessage, decompressWithin, if_neg hne, h.all]
  simp only [Option.bind_eq_bind, Option.bind_some, if_neg hfirst, if_neg hlast]
  rfl

/-- The comma behind a member. -/
def comma (behind : GoString) : GoString := if behind = [] then [] else [44]

theorem codeComma_separable {bytes behind : GoString} {code : UInt8}
    (hcode : code < 15 ∧ code ≠ 0 ∧ code ≠ 8 ∧ code ≠ 9) (hne : bytes ≠ [])
    (hsep : Separable bytes behind) (hbehind : ∀ b ∈ behind.head?, 128 ≤ b)
    (hdrop : message.drop offset = bytes ++ behind) :
    codeComma message code (offset + bytes.length) = some (comma behind) := by
  have hcodes : getCodeListIndex (str "action") = 0 ∧ getCodeListIndex (str "filter") = 8 ∧
      getCodeListIndex (str "authorization") = 9 := by decide
  have hpos : 0 < bytes.length := List.length_pos_iff.mpr hne
  have hlength : message.length = offset + bytes.length + behind.length := by
    have h := congrArg List.length hdrop
    rw [List.length_drop, List.length_append] at h
    omega
  unfold codeComma comma
  cases behind with
  | nil =>
    rw [if_neg]
    · rfl
    · simp only [List.length_nil, Nat.add_zero] at hlength
      simp [hlength]
  | cons b behind =>
    have hnext : message[offset + bytes.length]? = some b :=
      (drop_eq_cons (drop_behind hdrop)).1
    obtain ⟨last, hlast⟩ : ∃ last, bytes.getLast? = some last := by
      cases h : bytes.getLast? with
      | none => exact absurd (List.getLast?_eq_none_iff.mp h) hne
      | some last => exact ⟨last, rfl⟩
    have hbefore : message[offset + bytes.length - 1]? = some last := by
      rw [← hlast, List.getLast?_eq_getElem?]
      have hget : (message.drop offset)[bytes.length - 1]? = bytes[bytes.length - 1]? := by
        rw [hdrop, List.getElem?_append_left (by omega)]
      rw [← hget, List.getElem?_drop]
      congr 1
      omega
    have hge : 128 ≤ b := hbehind b rfl
    have hseparate := hsep last hlast
    rw [if_neg (List.cons_ne_nil _ _)] at hseparate
    have hmarks : b ≠ 125 ∧ b ≠ 93 := by
      refine ⟨?_, ?_⟩
      · rintro rfl
        exact absurd hge (by decide)
      · rintro rfl
        exact absurd hge (by decide)
    simp only [List.length_cons] at hlength
    rw [if_pos ⟨hcode.1, hcodes.1 ▸ hcode.2.1, hcodes.2.1 ▸ hcode.2.2.1,
      hcodes.2.2 ▸ hcode.2.2.2, by omega⟩, hnext, hbefore]
    simp [hmarks, hseparate]

end Tokens

/-! ## Values -/

section Values

variable {floats : Floats} {message : GoString} {offset : ℕ}

/-- A byte that is the type code of no value follows a value. -/
theorem decompressValue_kept {v behind : GoString} (hv : 34 ∉ v) (hkept : KeptValue floats v behind)
    (hbehind : ∀ b ∈ behind.head?, b < 143) :
    decompressValue floats (valueCode floats v ++ behind) =
      some (quoted v, (valueCode floats v).length) := by
  obtain ⟨b, bytes, hcode, hge, -⟩ := valueCode_head floats v
  have hread := decompressOneValue_kept hv hkept
  rw [hcode] at hread ⊢
  have hmark : ¬ IsMark b := by
    intro hmark
    obtain rfl | rfl | rfl | rfl := hmark
    all_goals exact absurd hge (by decide)
  have hnext : ¬ (b :: bytes ++ behind)[0 + (b :: bytes).length]? = some b := by
    rw [Nat.zero_add, List.getElem?_append_right le_rfl, Nat.sub_self]
    cases behind with
    | nil => simp
    | cons c behind =>
      intro h
      simp only [List.getElem?_cons_zero, Option.some.injEq] at h
      subst h
      exact absurd (hbehind c rfl) (UInt8.not_lt.mpr hge)
  rw [decompressValue, decompressValueFrom_item rfl hmark, List.drop_zero, hread]
  simp only [Option.bind_some, if_pos, if_neg hnext, List.append_nil]

/-- The values of an array up to its end. -/
theorem decompressItems_kept {vs : List Quoteless} {s behind : GoString} {index fuel : ℕ}
    (hkept : KeptItems floats vs behind) (hindex : 0 < index) (hfuel : vs.length < fuel)
    (hdrop : s.drop index = vs.flatMap (fun v => valueCode floats v.val) ++ 93 :: behind) :
    decompressValueFrom floats s fuel index =
      some (commaSeparated (vs.map fun v => quoted v.val) ++ [93],
        index + (vs.flatMap fun v => valueCode floats v.val).length + 1) := by
  induction vs generalizing index fuel with
  | nil =>
    obtain ⟨fuel, rfl⟩ := Nat.exists_eq_add_of_le' hfuel
    obtain ⟨hhead, -, -⟩ := drop_eq_cons hdrop
    exact decompressValueFrom_close hhead (.inl rfl)
  | cons v vs ih =>
    obtain ⟨hvalue, hsame, hkept⟩ := hkept
    obtain _ | fuel := fuel
    · omega
    simp only [List.length_cons] at hfuel
    obtain ⟨b, bytes, hcode, hge, -⟩ := valueCode_head floats v.val
    have hdrop' : s.drop index = valueCode floats v.val ++
        (vs.flatMap (fun v => valueCode floats v.val) ++ 93 :: behind) := by
      rw [hdrop, List.flatMap_cons, List.append_assoc]
    have hread := decompressOneValue_kept v.property hvalue
    have hmark : ¬ IsMark b := by
      intro hmark
      obtain rfl | rfl | rfl | rfl := hmark
      all_goals exact absurd hge (by decide)
    have hhead : s[index]? = some b := by
      rw [hcode] at hdrop'
      exact (drop_eq_cons hdrop').1
    have hrest := drop_behind hdrop'
    have hnext : s[index + (valueCode floats v.val).length]? = some b ↔ vs ≠ [] := by
      cases vs with
      | nil =>
        have hclose : s[index + (valueCode floats v.val).length]? = some 93 :=
          (drop_eq_cons hrest).1
        rw [hclose]
        simp only [Option.some.injEq, ne_eq, not_true_eq_false, iff_false]
        rintro rfl
        exact absurd hge (by decide)
      | cons w vs =>
        have hsame' := hsame w rfl
        obtain ⟨b', bytes', hcode', -, -⟩ := valueCode_head floats w.val
        rw [hcode, hcode', List.head?_cons, List.head?_cons, Option.some.injEq] at hsame'
        rw [List.flatMap_cons, hcode'] at hrest
        rw [(drop_eq_cons hrest).1, hsame']
        simp
    have hfuel' : vs.length < fuel := by omega
    have hitems := ih hkept (by omega) hfuel' hrest
    rw [decompressValueFrom_item hhead hmark, hdrop', hread]
    simp only [Option.bind_some, if_neg (show ¬ index = 0 by omega), hitems, hnext,
      Option.map_some, Option.some.injEq, Prod.mk.injEq]
    refine ⟨?_, ?_⟩
    · cases vs with
      | nil => simp [commaSeparated]
      | cons w vs => simp [commaSeparated]
    · rw [List.flatMap_cons, List.length_append]
      omega

theorem decompressValue_items {vs : List Quoteless} {behind : GoString}
    (hkept : KeptItems floats vs behind) :
    decompressValue floats (91 :: (vs.flatMap (fun v => valueCode floats v.val) ++ 93 :: behind)) =
      some (91 :: (commaSeparated (vs.map fun v => quoted v.val) ++ [93]),
        (vs.flatMap fun v => valueCode floats v.val).length + 2) := by
  have hlength : vs.length ≤ (vs.flatMap fun v => valueCode floats v.val).length := by
    clear hkept
    induction vs with
    | nil => simp
    | cons v vs ih =>
      obtain ⟨b, bytes, hcode, -, -⟩ := valueCode_head floats v.val
      simp only [List.flatMap_cons, List.length_append, List.length_cons, hcode]
      omega
  have hfuel : vs.length < (91 :: (vs.flatMap (fun v => valueCode floats v.val) ++
      93 :: behind)).length := by
    simp only [List.length_cons, List.length_append]
    omega
  rw [decompressValue, decompressValueFrom_mark rfl (.inl rfl),
    decompressItems_kept hkept (by omega) hfuel rfl, Option.map_some]
  simp only [Option.some.injEq, Prod.mk.injEq, true_and]
  omega

end Values

/-! ## Members -/

section Members

variable {floats : Floats} {pathList : List GoString} {message : GoString} {offset : ℕ}

/-- A key and the text of its coded value, and a comma if another member follows. -/
theorem emits_coded {k : UInt8} {key bytes text behind : GoString} (hk : 128 ≤ k)
    (hcode : k - 128 < 15 ∧ k - 128 ≠ 0 ∧ k - 128 ≠ 8 ∧ k - 128 ≠ 9)
    (hkeyword : keyword (k - 128) = some (quoted key ++ [58]))
    (hoperand : operand floats pathList (k - 128) (bytes ++ behind) =
      some (text, 1 + bytes.length))
    (hsep : Separable (k :: bytes) behind) (hbehind : ∀ b ∈ behind.head?, 128 ≤ b)
    (hdrop : message.drop offset = k :: bytes ++ behind) :
    Emits floats pathList message offset (quoted key ++ 58 :: text ++ comma behind)
      (offset + (k :: bytes).length) := by
  obtain ⟨hhead, hrest, -⟩ := drop_eq_cons hdrop
  have hlength : (k :: bytes).length = 1 + bytes.length := Nat.add_comm _ _
  have hcomma := codeComma_separable hcode (List.cons_ne_nil _ _) hsep hbehind hdrop
  have hread : operand floats pathList (k - 128) (message.drop (offset + 1)) =
      some (text, 1 + bytes.length) := by
    rw [hrest]
    exact hoperand
  refine Emits.token (by simp) ?_
  rw [hlength] at hcomma ⊢
  rw [readCompressedMessage_code hhead hk hread, hkeyword, Option.bind_some, hcomma,
    Option.map_some]
  simp

/-- A key that has no coded value. -/
theorem emits_key {k : UInt8} {key behind : GoString} (hk : k = 128 ∨ k = 137)
    (hkeyword : keyword (k - 128) = some (quoted key ++ [58]))
    (hdrop : message.drop offset = k :: behind) :
    Emits floats pathList message offset (quoted key ++ [58]) (offset + 1) := by
  obtain ⟨hhead, -, hlt⟩ := drop_eq_cons hdrop
  have hge : 128 ≤ k := by
    obtain rfl | rfl := hk
    all_goals decide
  have hother : k ∉ [129, 130, 131, 132, 133] := by
    obtain rfl | rfl := hk
    all_goals decide
  have hexcluded : codeComma message (k - 128) (offset + 1) = some [] := by
    have hcodes : getCodeListIndex (str "action") = 0 ∧
        getCodeListIndex (str "authorization") = 9 := by decide
    rw [codeComma, if_neg]
    rintro ⟨-, haction, -, hauthorization, -⟩
    obtain rfl | rfl := hk
    · exact haction (hcodes.1 ▸ rfl)
    · exact hauthorization (hcodes.2 ▸ rfl)
  refine Emits.token (by decide) ?_
  rw [readCompressedMessage_code hhead hge (operand_other hother), hkeyword, Option.bind_some,
    hexcluded, Option.map_some]
  simp

theorem emits_verb {verb : Verb} {behind : GoString} (hbehind : ∀ b ∈ behind.head?, 128 ≤ b)
    (hdrop : message.drop offset = verb.code :: behind) :
    Emits floats pathList message offset (quoted verb.word ++ comma behind) (offset + 1) := by
  obtain ⟨hhead, -, -⟩ := drop_eq_cons hdrop
  have hcode : 128 ≤ verb.code ∧ verb.code ∉ [129, 130, 131, 132, 133] ∧
      keyword (verb.code - 128) = some (quoted verb.word) ∧
      verb.code - 128 < 15 ∧ verb.code - 128 ≠ 0 ∧ verb.code - 128 ≠ 8 ∧
      verb.code - 128 ≠ 9 ∧ verb.code ≠ 125 ∧ verb.code ≠ 123 ∧ verb.code ≠ 91 := by
    cases verb <;> decide
  obtain ⟨hge, hother, hkeyword, hlt, h0, h8, h9, h125, h123, h91⟩ := hcode
  have hsep : Separable [verb.code] behind := by
    intro b hb
    simp only [List.getLast?_singleton, Option.mem_def, Option.some.injEq] at hb
    subst hb
    split
    · exact h125
    · exact ⟨h123, h91⟩
  have hcomma := codeComma_separable ⟨hlt, h0, h8, h9⟩ (List.cons_ne_nil _ _) hsep hbehind hdrop
  refine Emits.token (by decide) ?_
  rw [readCompressedMessage_code hhead hge (operand_other hother), hkeyword, Option.bind_some]
  rw [List.length_singleton] at hcomma
  rw [hcomma, Option.map_some, List.append_nil]

/-- Bytes below 128 at the end of the message stay as they are, unless an opening brace follows
a closing one. -/
theorem emits_raw {bytes : GoString} (hbytes : ∀ b ∈ bytes, b < 128)
    (hchain : bytes.IsChain fun a b => ¬ (a = 125 ∧ b = 123)) (hdrop : message.drop offset = bytes) :
    Emits floats pathList message offset bytes (offset + bytes.length) := by
  induction bytes generalizing offset with
  | nil => exact Emits.refl
  | cons b bytes ih =>
    obtain ⟨hhead, hrest, -⟩ := drop_eq_cons hdrop
    have hnext : ¬ (b = 125 ∧ message[offset + 1]? = some 123) := by
      rintro ⟨rfl, hnext⟩
      obtain ⟨hcons, -⟩ := drop_of_getElem? hnext
      rw [hrest] at hcons
      rw [hcons, List.isChain_cons_cons] at hchain
      exact hchain.1 ⟨rfl, rfl⟩
    have hbyte : Emits floats pathList message offset _ (offset + 1) :=
      Emits.token (by decide) (readCompressedMessage_byte hhead (hbytes b List.mem_cons_self))
    rw [if_neg hnext] at hbyte
    have htail := ih (fun c hc => hbytes c (List.mem_cons_of_mem _ hc)) hchain.tail hrest
    have hoffset : offset + (b :: bytes).length = offset + 1 + bytes.length := by
      rw [List.length_cons]
      omega
    rw [hoffset]
    exact hbyte.trans htail

theorem operand_kept {k : UInt8} (hk : k = 129 ∨ k = 130 ∨ k = 133) {v behind : GoString}
    (hv : 34 ∉ v) (hkept : KeptValue floats v behind) (hbehind : ∀ b ∈ behind.head?, b < 138) :
    operand floats pathList (k - 128) (valueCode floats v ++ behind) =
      some (quoted v, 1 + (valueCode floats v).length) := by
  have hlt : ∀ b ∈ behind.head?, b < 143 := fun b hb =>
    UInt8.lt_trans (hbehind b hb) (by decide)
  rw [operand_value hk, decompressValue_kept hv hkept hlt, Option.map_some]

/-- The token of an authorization that is the last member, kept as it is or coded as a text. -/
theorem emits_authorization {token : Quoteless} {isOpen : Bool}
    (htype : isOpen = true → analyzeValueType floats token = 0) (hbytes : ∀ b ∈ token.val, b < 128)
    (hchain : token.val.IsChain fun a b => ¬ (a = 125 ∧ b = 123))
    (hdrop : message.drop offset =
      137 :: if isOpen then valueCode floats token else quoted token.val) :
    Emits floats pathList message offset (keyText "authorization" (quoted token.val))
      (offset + (137 :: if isOpen then valueCode floats token else quoted token.val).length) := by
  have hkey : Emits floats pathList message offset (quoted (str "authorization") ++ [58]) _ :=
    emits_key (.inr rfl) (by decide) hdrop
  obtain ⟨-, hrest, -⟩ := drop_eq_cons hdrop
  have hquoted : ∀ b ∈ quoted token.val, b < 128 := by
    intro b hb
    simp only [quoted, List.mem_cons, List.mem_append, List.not_mem_nil, or_false] at hb
    obtain rfl | hb | rfl := hb
    · decide
    · exact hbytes b hb
    · decide
  have hquotedChain : (quoted token.val).IsChain fun a b => ¬ (a = 125 ∧ b = 123) := by
    refine List.IsChain.cons (List.IsChain.append hchain (List.isChain_singleton _) ?_) ?_
    · rintro a - b hb ⟨-, rfl⟩
      simp at hb
    · rintro b - ⟨h, -⟩
      exact absurd h (by decide)
  have hraw : ∀ {offset}, message.drop offset = quoted token.val →
      Emits floats pathList message offset (quoted token.val)
        (offset + (quoted token.val).length) :=
    fun hdrop => emits_raw hquoted hquotedChain hdrop
  have htext : keyText "authorization" (quoted token.val) =
      quoted (str "authorization") ++ [58] ++ quoted token.val := by
    simp [keyText]
  rw [htext]
  cases isOpen with
  | false =>
    have hoffset : offset + (137 :: quoted token.val).length =
        offset + 1 + (quoted token.val).length := by
      rw [List.length_cons]
      omega
    simp only [Bool.false_eq_true, if_false] at hrest ⊢
    rw [hoffset]
    exact hkey.trans (hraw hrest)
  | true =>
    -- The code of a text is skipped in front of a text.
    have hcode : valueCode floats token.val = 153 :: quoted token.val := by
      simp only [valueCode, htype rfl]
    simp only [if_true, hcode] at hrest ⊢
    obtain ⟨hhead, hrest', -⟩ := drop_eq_cons hrest
    have hskip : Emits floats pathList message (offset + 1) [] (offset + 1 + 1) := by
      have hcomma : codeComma message (153 - 128) (offset + 1 + 1) = some [] := by
        rw [codeComma, if_neg]
        rintro ⟨h, -⟩
        exact absurd h (by decide)
      have hkeyword : keyword (153 - 128) = some [] := by decide
      refine Emits.token (by decide) ?_
      rw [readCompressedMessage_code hhead (by decide) (operand_other (by decide)), hkeyword,
        Option.bind_some, hcomma, Option.map_some]
      rfl
    have hoffset : offset + (137 :: 153 :: quoted token.val).length =
        offset + 1 + 1 + (quoted token.val).length := by
      simp only [List.length_cons]
      omega
    rw [hoffset]
    have hall := hkey.trans (hskip.trans (hraw hrest'))
    rwa [List.nil_append] at hall

/-- A carried member is read back as its text. -/
theorem emits_member (hlength : pathList.length ≤ 65536) {m : Member} {isOpen : Bool}
    {behind : GoString} (hkept : m.Kept floats isOpen behind) (hpaths : ∀ p ∈ m.paths, p ∈ pathList)
    (hsep : Separable (m.bytes floats pathList isOpen) behind)
    (hbehind : ∀ b ∈ behind.head?, 128 ≤ b ∧ b < 138)
    (hdrop : message.drop offset = m.bytes floats pathList isOpen ++ behind) :
    Emits floats pathList message offset (m.text ++ comma behind)
      (offset + (m.bytes floats pathList isOpen).length) := by
  have hge : ∀ b ∈ behind.head?, 128 ≤ b := fun b hb => (hbehind b hb).1
  have hlt : ∀ b ∈ behind.head?, b < 138 := fun b hb => (hbehind b hb).2
  cases m with
  | action verb =>
    have hkey : Emits floats pathList message offset (quoted (str "action") ++ [58]) _ :=
      emits_key (.inl rfl) (by decide) hdrop
    obtain ⟨-, hrest, -⟩ := drop_eq_cons hdrop
    have hverb : Emits floats pathList message _ _ _ := emits_verb hge hrest
    simpa [Member.text, Member.bytes, keyText] using hkey.trans hverb
  | requestId v =>
    exact emits_coded (by decide) (by decide) (by decide)
      (operand_kept (.inl rfl) v.property hkept hlt) hsep hge hdrop
  | subscriptionId v =>
    exact emits_coded (by decide) (by decide) (by decide)
      (operand_kept (.inr (.inr rfl)) v.property hkept hlt) hsep hge hdrop
  | path p =>
    refine emits_coded (by decide) (by decide) (by decide) ?_ hsep hge hdrop
    rw [operand_path rfl, decompressPath_index hlength (hpaths p.val (by simp [Member.paths])),
      Option.map_some]
    rfl
  | value v =>
    cases v with
    | one v =>
      exact emits_coded (by decide) (by decide) (by decide)
        (operand_kept (.inr (.inl rfl)) v.property hkept hlt) hsep hge hdrop
    | many vs =>
      refine emits_coded (by decide) (by decide) (by decide) ?_ hsep hge hdrop
      have hitems := decompressValue_items hkept
      rw [operand_value (.inr (.inl rfl)), List.cons_append, List.append_assoc,
        List.singleton_append, hitems, Option.map_some]
      simp only [Many.text, List.length_cons, List.length_append, List.length_nil]
  | ts t =>
    refine emits_coded (by decide) (by decide) (by decide) ?_ hsep hge hdrop
    rw [operand_ts rfl, decompressTs_bytes, Option.map_some]
    rfl
  | authorization token =>
    obtain ⟨verb, hverb⟩ | ⟨hcode, rfl, htype, hbytes, hchain⟩ := hkept
    · obtain ⟨hword, hlt, -, -⟩ := verb.code_eq
      simp only [Member.bytes, hverb, hlt, if_pos, hword] at hdrop ⊢
      have hkey : Emits floats pathList message offset (quoted (str "authorization") ++ [58]) _ :=
        emits_key (.inr rfl) (by decide) hdrop
      obtain ⟨-, hrest, -⟩ := drop_eq_cons hdrop
      have hemits : Emits floats pathList message _ _ _ := emits_verb hge hrest
      simpa [Member.text, hverb, keyText] using hkey.trans hemits
    · have hbytesEq : Member.bytes floats pathList isOpen (.authorization token) =
          137 :: if isOpen then valueCode floats token else quoted token.val := by
        have hlt : ¬ getCodeListIndex token.val < 26 := by
          rw [hcode]
          decide
        simp only [Member.bytes, if_neg hlt]
        split <;> rfl
      rw [hbytesEq, List.append_nil] at hdrop
      rw [hbytesEq, comma, if_pos rfl, List.append_nil]
      exact emits_authorization htype hbytes hchain hdrop
  | data packs => exact hkept.elim

/-- A key starts every member. -/
theorem Member.Kept.bytes_eq_cons {m : Member} {isOpen : Bool} {behind : GoString}
    (hkept : m.Kept floats isOpen behind) :
    ∃ k bytes, m.bytes floats pathList isOpen = k :: bytes ∧ 128 ≤ k ∧ k < 138 := by
  cases m with
  | action verb => exact ⟨128, _, rfl, by decide, by decide⟩
  | requestId v => exact ⟨129, _, rfl, by decide, by decide⟩
  | subscriptionId v => exact ⟨133, _, rfl, by decide, by decide⟩
  | path p => exact ⟨132, _, rfl, by decide, by decide⟩
  | value v =>
    cases v with
    | one v => exact ⟨130, _, rfl, by decide, by decide⟩
    | many vs => exact ⟨130, _, rfl, by decide, by decide⟩
  | ts t => exact ⟨131, _, rfl, by decide, by decide⟩
  | authorization token =>
    simp only [Member.bytes]
    split_ifs
    all_goals exact ⟨137, _, rfl, by decide, by decide⟩
  | data packs => exact hkept.elim

theorem messageBytes_head {members : List Member} {isOpen : Bool}
    (hkept : KeptMessage floats pathList isOpen members) :
    ∀ b ∈ (messageBytes floats pathList isOpen members).head?, 128 ≤ b ∧ b < 138 := by
  intro b hb
  cases members with
  | nil => cases hb
  | cons m rest =>
    obtain ⟨k, bytes, hbytes, hge, hlt⟩ := hkept.1.bytes_eq_cons
    rw [messageBytes, hbytes] at hb
    cases hb
    exact ⟨hge, hlt⟩

theorem messageBytes_ne_nil {members : List Member} {isOpen : Bool} (hne : members ≠ [])
    (hkept : KeptMessage floats pathList isOpen members) :
    messageBytes floats pathList isOpen members ≠ [] := by
  cases members with
  | nil => exact absurd rfl hne
  | cons m rest =>
    obtain ⟨k, bytes, hbytes, -, -⟩ := hkept.1.bytes_eq_cons
    rw [messageBytes, hbytes]
    exact List.cons_ne_nil _ _

/-- The last byte of a carried message is no closing brace. -/
theorem messageBytes_last {members : List Member} {isOpen : Bool}
    (hkept : KeptMessage floats pathList isOpen members) :
    (messageBytes floats pathList isOpen members).getLast? ≠ some 125 := by
  induction members generalizing isOpen with
  | nil => exact fun h => by cases h
  | cons m rest ih =>
    obtain ⟨hm, hsep, hrest⟩ := hkept
    intro hlast
    rw [messageBytes] at hlast
    cases rest with
    | nil =>
      rw [messageBytes, List.append_nil] at hlast
      exact hsep 125 hlast rfl
    | cons m' rest =>
      rw [List.getLast?_append_of_ne_nil _ (messageBytes_ne_nil (List.cons_ne_nil _ _) hrest)]
        at hlast
      exact ih hrest hlast

theorem emits_members (hlength : pathList.length ≤ 65536) {members : List Member} {isOpen : Bool}
    (hkept : KeptMessage floats pathList isOpen members) (hlisted : Listed pathList members)
    (hdrop : message.drop offset = messageBytes floats pathList isOpen members) :
    Emits floats pathList message offset (commaSeparated (members.map Member.text))
      (offset + (messageBytes floats pathList isOpen members).length) := by
  induction members generalizing offset isOpen with
  | nil => exact Emits.refl
  | cons m rest ih =>
    obtain ⟨hm, hsep, hrest⟩ := hkept
    have hlisted' : Listed pathList rest := fun m' hm' => hlisted m' (List.mem_cons_of_mem _ hm')
    have hfirst := emits_member hlength hm (hlisted m List.mem_cons_self) hsep
      (messageBytes_head hrest) hdrop
    have hothers := ih hrest hlisted' (drop_behind hdrop)
    have hall := hfirst.trans hothers
    have hoffset : offset + (messageBytes floats pathList isOpen (m :: rest)).length =
        offset + (m.bytes floats pathList isOpen).length +
          (messageBytes floats pathList (m.opens isOpen) rest).length := by
      rw [messageBytes, List.length_append]
      omega
    rw [hoffset]
    cases rest with
    | nil => simpa [messageBytes, comma, commaSeparated] using hall
    | cons m' rest =>
      have hne := messageBytes_ne_nil (List.cons_ne_nil m' rest) hrest
      simpa [comma, hne, commaSeparated] using hall

/-- The bytes of a carried message are read back as its text. -/
theorem decompressMessage_kept (hlength : pathList.length ≤ 65536) {members : List Member}
    (hne : members ≠ []) (hkept : KeptMessage floats pathList false members)
    (hlisted : Listed pathList members) :
    decompressMessage floats pathList (messageBytes floats pathList false members) =
      some (messageText members) := by
  have hfirst : (messageBytes floats pathList false members).head? ≠ some 123 := by
    intro hhead
    exact absurd (messageBytes_head hkept 123 hhead).1 (by decide)
  have hemits : Emits floats pathList (messageBytes floats pathList false members) 0 _ _ :=
    emits_members hlength hkept hlisted rfl
  rw [Nat.zero_add] at hemits
  exact hemits.decompressMessage (messageBytes_ne_nil hne hkept) hfirst (messageBytes_last hkept)

end Members

/-! ## The round trip -/

/-- DecompressMessage after CompressMessage returns a JSON text of the same value. -/
def RoundTrips (floats : Floats) (pathList : List GoString) (message : GoString) : Prop :=
  ∃ compressed text, compressMessage floats pathList message = some compressed ∧
    decompressMessage floats pathList compressed = some text ∧
    ∀ v, parseText message = some v → ∃ w, parseText text = some w ∧ canon w = canon v

/-- A flat message comes back if its members are carried: the values and the paths are no words
of the code list, the values are those their codes stand for, and the bytes behind which a comma
or the closing brace is made up are no brackets. -/
theorem round_trip_kept (floats : Floats) {pathList : List GoString}
    (hsorted : pathList.Pairwise (· ≤ ·)) (hlength : pathList.length ≤ 65536)
    {message : List Member} (hne : message ≠ []) (hlisted : Listed pathList message)
    (hkept : KeptMessage floats pathList false message) :
    RoundTrips floats pathList (messageText message) :=
  ⟨_, _, compressMessage_kept hsorted hlength hne hkept hlisted,
    decompressMessage_kept hlength hne hkept hlisted, fun v hv => ⟨v, hv, rfl⟩⟩

def quoteless (s : String) (h : 34 ∉ str s := by decide) : Quoteless := ⟨str s, h⟩

/-- A get request for Vehicle.Speed with the request id 237. -/
def getSpeed : List Member :=
  [.action .get, .path (quoteless "Vehicle.Speed"), .requestId (quoteless "237")]

theorem round_trip_get : RoundTrips sampleFloats [str "Vehicle.Speed"] (messageText getSpeed) := by
  have hkept : KeptMessage sampleFloats [str "Vehicle.Speed"] false getSpeed := by
    have hvalue : KeptValue sampleFloats (str "237") [] :=
      ⟨by decide, 237, by decide, by decide⟩
    have hseparable : ∀ {bytes behind : GoString} {b : UInt8}, bytes.getLast? = some b →
        b ≠ 125 ∧ b ≠ 123 ∧ b ≠ 91 → Separable bytes behind := by
      intro bytes behind b hlast hb c hc
      rw [hlast] at hc
      cases hc
      split
      · exact hb.1
      · exact hb.2
    exact ⟨trivial, hseparable (b := 138) (by decide) (by decide), ⟨by decide, by decide⟩,
      hseparable (b := 0) (by decide) (by decide), hvalue,
      hseparable (b := 237) (by decide) (by decide), trivial⟩
  exact round_trip_kept sampleFloats (by decide) (by decide) (by decide) (by decide) hkept

/-- The time 2024-05-06T07:08:09Z. -/
def sampleTime : Timestamp := ⟨4, 5, 6, 7, 8, 9, by decide, by decide, by decide, by decide,
  by decide, by decide⟩

/-- The response to a get request, with one data object and one data point. -/
def speedResponse : List Member :=
  [.action .get, .requestId (quoteless "237"),
    .data (.one [.path (quoteless "Vehicle.Speed"),
      .dp (.one [.value (.one (quoteless "50")), .ts sampleTime])]), .ts sampleTime]

/-- A comma is put between the key data and its object, so that the text is no JSON. -/
theorem round_trip_response : ¬ ∀ floats pathList message,
    pathList.Pairwise (· ≤ ·) → pathList.length ≤ 65536 → message ≠ [] →
    Listed pathList message → RoundTrips floats pathList (messageText message) := by
  intro h
  obtain ⟨compressed, text, hcompressed, htext, hsame⟩ :=
    h sampleFloats [str "Vehicle.Speed"] speedResponse (by decide) (by decide) (by decide)
      (by decide)
  have hall : ((compressMessage sampleFloats [str "Vehicle.Speed"]
      (messageText speedResponse)).bind (decompressMessage sampleFloats [str "Vehicle.Speed"])).bind
        parseText = none := by decide +kernel
  rw [hcompressed, Option.bind_some, htext, Option.bind_some] at hall
  obtain ⟨v, hv⟩ := Option.isSome_iff_exists.mp
    (show (parseText (messageText speedResponse)).isSome by decide +kernel)
  obtain ⟨w, hw, -⟩ := hsame v hv
  rw [hall] at hw
  cases hw

end VissServer.Utils
