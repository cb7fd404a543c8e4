import VissServer.Utils.Codecs

/-!
What CompressMessage makes of a flat message whose members it can carry: the codes of the
members one after the other. A value that is an array leaves the compressor with the state of
a value, until the next key of a coded value.
-/
namespace VissServer.Utils

open VissServer.Go

/-! ## The code of a message -/

def Verb.code : Verb → UInt8
  | .get => 138
  | .set => 139
  | .subscribe => 140
  | .unsubscribe => 141
  | .subscription => 142

/-- The bytes of a member; isOpen is the state that an array leaves behind it. -/
def Member.bytes (floats : Floats) (pathList : List GoString) (isOpen : Bool) :
    Member → GoString
  | .action verb => [128, verb.code]
  | .requestId v => 129 :: valueCode floats v
  | .subscriptionId v => 133 :: valueCode floats v
  | .path p => 132 :: indexBytes (pathList.idxOf p.val)
  | .value (.one v) => 130 :: valueCode floats v
  | .value (.many vs) => 130 :: 91 :: (vs.flatMap (fun v => valueCode floats v.val) ++ [93])
  | .ts t => 131 :: t.bytes
  | .authorization token =>
    if getCodeListIndex token.val < 26 then [137, getCodeListIndex token.val + 128]
    else if isOpen then 137 :: valueCode floats token
    else 137 :: quoted token.val
  | .data _ => []

/-- The state behind a member. -/
def Member.opens (isOpen : Bool) : Member → Bool
  | .action _ => isOpen
  | .authorization token => isOpen && decide (getCodeListIndex token.val < 26)
  | .value (.many _) => true
  | _ => false

def messageBytes (floats : Floats) (pathList : List GoString) : Bool → List Member → GoString
  | _, [] => []
  | isOpen, m :: rest =>
    m.bytes floats pathList isOpen ++ messageBytes floats pathList (m.opens isOpen) rest

/-- The values of an array are kept, and all have the same type code. -/
def KeptItems (floats : Floats) : List Quoteless → GoString → Prop
  | [], _ => True
  | v :: vs, behind =>
    KeptValue floats v (vs.flatMap (fun w => valueCode floats w.val) ++ 93 :: behind) ∧
      (∀ w ∈ vs.head?, (valueCode floats w).head? = (valueCode floats v).head?) ∧
      KeptItems floats vs behind

/-- The last byte of a member is no opening bracket where another member follows, and no
closing brace where none does: the comma and the closing brace are made up from this byte. -/
def Separable (bytes behind : GoString) : Prop :=
  ∀ b ∈ bytes.getLast?, if behind = [] then b ≠ 125 else b ≠ 123 ∧ b ≠ 91

/-- The member is carried, with these bytes of the members behind it. -/
def Member.Kept (floats : Floats) (isOpen : Bool) (behind : GoString) : Member → Prop
  | .action _ => True
  | .requestId v => KeptValue floats v behind
  | .subscriptionId v => KeptValue floats v behind
  | .path p => getCodeListIndex p.val = 255 ∧ 47 ∉ p.val
  | .value (.one v) => KeptValue floats v behind
  | .value (.many vs) => KeptItems floats vs behind
  | .ts _ => True
  | .authorization token =>
    (∃ verb : Verb, token.val = verb.word) ∨
      getCodeListIndex token.val = 255 ∧ behind = [] ∧
        (isOpen = true → analyzeValueType floats token = 0) ∧ (∀ b ∈ token.val, b < 128) ∧
        token.val.IsChain fun a b => ¬ (a = 125 ∧ b = 123)
  | .data _ => False

/-- All members are carried, and stay apart from each other. -/
def KeptMessage (floats : Floats) (pathList : List GoString) : Bool → List Member → Prop
  | _, [] => True
  | isOpen, m :: rest =>
    m.Kept floats isOpen (messageBytes floats pathList (m.opens isOpen) rest) ∧
      Separable (m.bytes floats pathList isOpen)
        (messageBytes floats pathList (m.opens isOpen) rest) ∧
      KeptMessage floats pathList (m.opens isOpen) rest

/-! ## Tokens -/

section Tokens

variable {floats : Floats} {pathList : List GoString} {message : GoString} {offset : ℕ}
  {st st' : Compressor}

/-- The loop gets from one offset and state to another. -/
def Moves (floats : Floats) (pathList : List GoString) (message : GoString) (offset : ℕ)
    (st : Compressor) (offset' : ℕ) (st' : Compressor) : Prop :=
  ∃ k, offset + k ≤ offset' ∧ ∀ fuel, compressFrom floats pathList message (fuel + k) offset st =
    compressFrom floats pathList message fuel offset' st'

theorem Moves.refl : Moves floats pathList message offset st offset st :=
  ⟨0, le_rfl, fun _ => rfl⟩

theorem Moves.trans {offset₁ offset₂ : ℕ} {st₁ st₂ : Compressor}
    (h₁ : Moves floats pathList message offset st offset₁ st₁)
    (h₂ : Moves floats pathList message offset₁ st₁ offset₂ st₂) :
    Moves floats pathList message offset st offset₂ st₂ := by
  obtain ⟨k₁, hk₁, hrun₁⟩ := h₁
  obtain ⟨k₂, hk₂, hrun₂⟩ := h₂
  refine ⟨k₂ + k₁, by omega, fun fuel => ?_⟩
  rw [← Nat.add_assoc, hrun₁, hrun₂]

/-- A loop that gets to the end of the message returns what it has written. -/
theorem Moves.compressMessage
    (h : Moves floats pathList message 0 ⟨255, false, []⟩ message.length st) :
    compressMessage floats pathList message = some st.message2 := by
  obtain ⟨k, hk, hrun⟩ := h
  obtain ⟨fuel, hfuel⟩ := Nat.exists_eq_add_of_le (show k ≤ message.length by omega)
  rw [Nat.add_comm] at hfuel
  have hend : compressFrom floats pathList message fuel message.length st = some st.message2 := by
    cases fuel <;> rw [compressFrom, if_neg (lt_irrefl _)]
  rw [Utils.compressMessage]
  conv_lhs => rw [hfuel]
  rw [hrun, hend]

theorem drop_behind {token behind : GoString} (hdrop : message.drop offset = token ++ behind) :
    message.drop (offset + token.length) = behind := by
  rw [← List.drop_drop, hdrop, List.drop_left]

theorem Moves.token {token behind : GoString} (hdrop : message.drop offset = token ++ behind)
    (hne : token ≠ []) (hread : readUncompressedMessage message offset = some token)
    (hstep : compressToken floats pathList message offset (offset + token.length) token st =
      some st') : Moves floats pathList message offset st (offset + token.length) st' := by
  have hlt : offset < message.length := by
    by_contra hge
    rw [List.drop_of_length_le (by omega)] at hdrop
    exact hne (List.append_eq_nil_iff.mp hdrop.symm).1
  have hpos : 0 < token.length := List.length_pos_iff.mpr hne
  refine ⟨1, by omega, fun fuel => ?_⟩
  rw [compressFrom, if_pos hlt, hread]
  simp only [Option.bind_eq_bind, Option.bind_some, hstep]

theorem readUncompressedMessage_quoted {w behind : GoString} (hw : 34 ∉ w)
    (hdrop : message.drop offset = quoted w ++ behind) :
    readUncompressedMessage message offset = some (quoted w) := by
  have hcons : message.drop offset = 34 :: (w ++ 34 :: behind) := by
    rw [hdrop]
    simp [quoted]
  obtain ⟨hhead, hbehind, hlt⟩ := drop_eq_cons hcons
  have hindex : index? [34] (w ++ 34 :: behind) = some w.length := by
    have h := index_byte_append hw behind
    unfold index at h
    cases hi : index? [34] (w ++ 34 :: behind) with
    | none =>
      rw [hi] at h
      simp only at h
      omega
    | some i =>
      rw [hi] at h
      simp only at h
      rw [Int.natCast_inj.mp h]
  have hmark : nextQuoteMark message (offset + 1) = offset + 1 + w.length := by
    rw [nextQuoteMark, hbehind, hindex]
  have hmessage : message = message.take offset ++ quoted w ++ behind := by
    rw [List.append_assoc, ← hdrop, List.take_append_drop]
  have hslice : slice message offset ((offset + 1 + w.length : ℕ) + 1) = some (quoted w) := by
    refine slice_append (message.take offset) behind hmessage ?_ ?_
    · rw [List.length_take, Nat.min_eq_left (by omega)]
    · simp only [quoted, List.length_cons, List.length_append, List.length_nil]
      omega
  rw [readUncompressedMessage, hhead]
  simp only [Option.bind_eq_bind, Option.bind_some, if_pos, hmark]
  exact hslice

theorem readUncompressedMessage_byte {b : UInt8} {behind : GoString} (hb : b < 128) (hne : b ≠ 34)
    (hdrop : message.drop offset = b :: behind) :
    readUncompressedMessage message offset = some [b] := by
  obtain ⟨hhead, -, -⟩ := drop_eq_cons hdrop
  have hlt : b.toNat < 0x80 := UInt8.lt_iff_toNat_lt.mp hb
  rw [readUncompressedMessage, hhead]
  simp only [Option.bind_eq_bind, Option.bind_some]
  rw [if_neg hne, encodeRune, if_pos hlt, UInt8.ofNat_toNat]

/-- A punctuation mark between two tokens. -/
theorem moves_byte {b : UInt8} {behind : GoString} (hb : b < 128) (hne : b ≠ 34)
    (hdrop : message.drop offset = b :: behind) :
    Moves floats pathList message offset st (offset + 1)
      (compressByte message (offset + 1) b st) :=
  Moves.token hdrop (List.cons_ne_nil _ _)
    (readUncompressedMessage_byte hb hne hdrop) rfl

theorem moves_separator {b : UInt8} {behind : GoString} (hb : b = 44 ∨ b = 58)
    (hdrop : message.drop offset = b :: behind) :
    Moves floats pathList message offset st (offset + 1) st := by
  have hstep : compressByte message (offset + 1) b st = st := by
    obtain rfl | rfl := hb
    · rfl
    · simp [compressByte]
  have hmove : Moves floats pathList message _ st _ _ :=
    moves_byte ?_ ?_ hdrop
  · rwa [hstep] at hmove
  · obtain rfl | rfl := hb
    all_goals decide
  · obtain rfl | rfl := hb
    all_goals decide

theorem compressToken_quoted {w : GoString} {start : ℕ} :
    compressToken floats pathList message start offset (quoted w) st =
      if getCodeListIndex w < 26 then
        some (if getCodeListIndex w ∈ [codeListIndexTs, codeListIndexValue, codeListIndexPath,
          codeListIndexReqId, codeListIndexSubId] then
          ⟨getCodeListIndex w, false, st.message2 ++ [getCodeListIndex w + 128]⟩
        else ⟨st.tokenState, st.isArray, st.message2 ++ [getCodeListIndex w + 128]⟩)
      else compressText floats pathList message start offset (quoted w) st := by
  have hlength : UInt8.ofNat codeList.length = 26 := rfl
  obtain ⟨a, b, rest, hquoted⟩ : ∃ a b rest, quoted w = a :: b :: rest := by
    cases w with
    | nil => exact ⟨34, 34, [], rfl⟩
    | cons c w => exact ⟨34, c, w ++ [34], rfl⟩
  have hslice := slice_quoted w
  rw [hquoted] at hslice ⊢
  simp only [compressToken, hslice, Option.bind_eq_bind, Option.bind_some, hlength,
    Compressor.append, List.mem_cons, List.not_mem_nil, or_false]
  split_ifs <;> rfl

/-- A key, which is a word of the code list, and the colon behind it. -/
theorem moves_key {w behind : GoString} (hw : 34 ∉ w) (hcode : getCodeListIndex w < 26)
    (hdrop : message.drop offset = quoted w ++ 58 :: behind) :
    Moves floats pathList message offset st (offset + ((quoted w).length + 1))
      (if getCodeListIndex w ∈ [codeListIndexTs, codeListIndexValue, codeListIndexPath,
          codeListIndexReqId, codeListIndexSubId] then
          ⟨getCodeListIndex w, false, st.message2 ++ [getCodeListIndex w + 128]⟩
        else ⟨st.tokenState, st.isArray, st.message2 ++ [getCodeListIndex w + 128]⟩) := by
  have hkey : Moves floats pathList message _ st _ _ :=
    Moves.token hdrop
    (List.cons_ne_nil _ _) (readUncompressedMessage_quoted hw hdrop)
    (by rw [compressToken_quoted, if_pos hcode])
  rw [← Nat.add_assoc]
  exact hkey.trans (moves_separator (.inr rfl) (drop_behind hdrop))

/-- A quoted text that is no word of the code list. -/
theorem moves_text {w behind : GoString} (hw : 34 ∉ w) (hcode : getCodeListIndex w = 255)
    (hdrop : message.drop offset = quoted w ++ behind)
    (hstep : compressText floats pathList message offset (offset + (quoted w).length) (quoted w) st =
      some st') : Moves floats pathList message offset st (offset + (quoted w).length) st' :=
  Moves.token hdrop (List.cons_ne_nil _ _) (readUncompressedMessage_quoted hw hdrop)
    (by rw [compressToken_quoted, hcode, if_neg (by decide), hstep])

end Tokens

/-! ## Members -/

section Members

variable {floats : Floats} {pathList : List GoString} {message : GoString} {offset start : ℕ}
  {out : GoString}

/-- The state between two members. -/
def openState (isOpen : Bool) : UInt8 := if isOpen then codeListIndexValue else 255

theorem compressText_value {tokenState : UInt8} {isArray : Bool} {token bytes : GoString}
    (hstate : tokenState ∈ [codeListIndexValue, codeListIndexReqId, codeListIndexSubId])
    (hbytes : compressValue floats token = some bytes) :
    compressText floats pathList message start offset token ⟨tokenState, isArray, out⟩ =
      some ⟨if isArray then tokenState else 255, isArray, out ++ bytes⟩ := by
  have hts : tokenState ≠ codeListIndexTs := by
    rintro rfl
    exact absurd hstate (by decide)
  simp only [List.mem_cons, List.not_mem_nil, or_false] at hstate
  simp only [compressText, if_neg hts, if_pos hstate, hbytes, Option.bind_eq_bind,
    Option.bind_some, Compressor.append]

theorem compressText_path {token bytes : GoString}
    (hbytes : compressPath pathList token = some bytes) :
    compressText floats pathList message start offset token ⟨codeListIndexPath, false, out⟩ =
      some ⟨255, false, out ++ bytes⟩ := by
  unfold compressText
  dsimp only
  rw [if_neg (by decide), if_neg (by decide), if_pos rfl, hbytes]
  rfl

theorem compressText_ts {token bytes : GoString}
    (hbytes : compressTS (message.drop start) = some bytes) :
    compressText floats pathList message start offset token ⟨codeListIndexTs, false, out⟩ =
      some ⟨255, false, out ++ bytes⟩ := by
  rw [compressText, if_pos rfl, hbytes]
  rfl

theorem compressText_raw {token : GoString} {c : UInt8} (hc : c ≠ 58)
    (hnext : message[offset]? = some c) :
    compressText floats pathList message start offset token ⟨255, false, out⟩ =
      some ⟨255, false, out ++ token⟩ := by
  unfold compressText
  dsimp only
  rw [if_neg (by decide), if_neg (by decide), if_neg (by decide), hnext]
  simp [hc, Compressor.append]

/-- The key of a coded value, and the value. -/
theorem moves_coded {key v bytes behind : GoString} {tokenState : UInt8} {isArray : Bool}
    (hkey : 34 ∉ key) (hcode : getCodeListIndex key ∈ [codeListIndexTs, codeListIndexValue,
      codeListIndexPath, codeListIndexReqId, codeListIndexSubId])
    (hv : 34 ∉ v) (hvalue : getCodeListIndex v = 255)
    (hdrop : message.drop offset = quoted key ++ 58 :: quoted v ++ behind)
    (hstep : ∀ start offset, message.drop start = quoted v ++ behind →
      compressText floats pathList message start offset (quoted v)
        ⟨getCodeListIndex key, false, out ++ [getCodeListIndex key + 128]⟩ =
        some ⟨255, false, out ++ (getCodeListIndex key + 128) :: bytes⟩) :
    Moves floats pathList message offset ⟨tokenState, isArray, out⟩
      (offset + (quoted key ++ 58 :: quoted v).length)
      ⟨255, false, out ++ (getCodeListIndex key + 128) :: bytes⟩ := by
  have hlt : getCodeListIndex key < 26 := by
    simp only [List.mem_cons, List.not_mem_nil, or_false] at hcode
    obtain h | h | h | h | h := hcode
    all_goals
      rw [h]
      decide
  have hdrop' : message.drop offset = quoted key ++ 58 :: (quoted v ++ behind) := by
    rw [hdrop]
    simp
  have hmove : Moves floats pathList message _ ⟨tokenState, isArray, out⟩ _ _ :=
    moves_key hkey hlt hdrop'
  rw [if_pos hcode] at hmove
  have hbehind : message.drop (offset + ((quoted key).length + 1)) = quoted v ++ behind := by
    rw [← Nat.add_assoc, ← List.drop_drop, drop_behind hdrop']
    rfl
  have hoffset : offset + (quoted key ++ 58 :: quoted v).length =
      offset + ((quoted key).length + 1) + (quoted v).length := by
    simp only [List.length_append, List.length_cons]
    omega
  rw [hoffset]
  exact hmove.trans (moves_text hv hvalue hbehind (hstep _ _ hbehind))

/-- The values of an array, with the commas between them. -/
theorem moves_items {vs : List Quoteless} {behind bytes : GoString} (hkept : KeptItems floats vs bytes)
    (hdrop : message.drop offset =
      commaSeparated (vs.map fun v => quoted v.val) ++ behind) :
    Moves floats pathList message offset ⟨codeListIndexValue, true, out⟩
      (offset + (commaSeparated (vs.map fun v => quoted v.val)).length)
      ⟨codeListIndexValue, true, out ++ vs.flatMap fun v => valueCode floats v.val⟩ := by
  induction vs generalizing offset out with
  | nil => simpa [commaSeparated] using Moves.refl
  | cons v vs ih =>
    obtain ⟨hvalue, -, hkept⟩ := hkept
    have hitem : ∀ {behind}, message.drop offset = quoted v.val ++ behind →
        Moves floats pathList message offset ⟨codeListIndexValue, true, out⟩
          (offset + (quoted v.val).length)
          ⟨codeListIndexValue, true, out ++ valueCode floats v.val⟩ := by
      intro behind hdrop
      exact moves_text v.property hvalue.1 hdrop
        (compressText_value (by decide) (compressValue_quoted hvalue))
    cases vs with
    | nil => simpa [commaSeparated] using hitem hdrop
    | cons w vs =>
      have hdrop' : message.drop offset = quoted v.val ++ 44 ::
          (commaSeparated ((w :: vs).map fun v => quoted v.val) ++ behind) := by
        rw [hdrop]
        simp [commaSeparated]
      have hcomma := drop_behind hdrop'
      obtain ⟨-, hrest, -⟩ := drop_eq_cons hcomma
      have hmoves := ((hitem hdrop').trans (moves_separator (.inl rfl) hcomma)).trans
        (ih hkept hrest)
      have hoffset : offset + (commaSeparated ((v :: w :: vs).map fun v => quoted v.val)).length =
          offset + (quoted v.val).length + 1 +
            (commaSeparated ((w :: vs).map fun v => quoted v.val)).length := by
        simp only [List.map_cons, commaSeparated, List.length_append, List.length_cons]
        omega
      rw [hoffset, List.flatMap_cons, ← List.append_assoc]
      exact hmoves

/-- An array of kept values behind its key. -/
theorem moves_array {vs : List Quoteless} {behind bytes : GoString} {tokenState : UInt8}
    (hkept : KeptItems floats vs bytes)
    (hdrop : message.drop offset = valueText (.many vs) ++ behind) :
    Moves floats pathList message offset ⟨tokenState, false, out⟩
      (offset + (valueText (.many vs)).length)
      ⟨codeListIndexValue, false,
        out ++ 130 :: 91 :: (vs.flatMap (fun v => valueCode floats v.val) ++ [93])⟩ := by
  set items := commaSeparated (vs.map fun v => quoted v.val) with hitems
  have hdrop' : message.drop offset =
      quoted (str "value") ++ 58 :: (91 :: (items ++ 93 :: behind)) := by
    rw [hdrop]
    simp [valueText, keyText, Many.text, hitems]
  have hkey : Moves floats pathList message _ ⟨tokenState, false, out⟩ _ _ :=
    moves_key (by decide) (by decide) hdrop'
  have hopen : message.drop (offset + ((quoted (str "value")).length + 1)) =
      91 :: (items ++ 93 :: behind) := by
    rw [← Nat.add_assoc, ← List.drop_drop, drop_behind hdrop']
    rfl
  obtain ⟨-, hfirst, -⟩ := drop_eq_cons hopen
  have hclose := drop_behind hfirst
  have hbracket : Moves floats pathList message _ ⟨codeListIndexValue, false, out ++ [130]⟩ _ _ :=
    moves_byte (by decide) (by decide) hopen
  have hrest : Moves floats pathList message _ ⟨_, _, out ++ [130] ++ [91]⟩ _ _ :=
    moves_items hkept hfirst
  have hend : Moves floats pathList message _
    ⟨codeListIndexValue, true,
      out ++ [130] ++ [91] ++ vs.flatMap fun v => valueCode floats v.val⟩ _ _ :=
    moves_byte
    (by decide) (by decide) hclose
  have hoffset : offset + (valueText (.many vs)).length =
      offset + ((quoted (str "value")).length + 1) + 1 + items.length + 1 := by
    simp only [valueText, keyText, Many.text, hitems, List.length_append, List.length_cons,
      List.length_nil]
    omega
  have hmoves := ((hkey.trans hbracket).trans hrest).trans hend
  rw [hoffset]
  convert hmoves using 1
  simp [compressByte, Compressor.append]

theorem Verb.code_eq (verb : Verb) : getCodeListIndex verb.word + 128 = verb.code ∧
    getCodeListIndex verb.word < 26 ∧ 34 ∉ verb.word ∧
    getCodeListIndex verb.word ∉ [codeListIndexTs, codeListIndexValue, codeListIndexPath,
      codeListIndexReqId, codeListIndexSubId] := by
  cases verb <;> decide

/-- A key that is no key of a coded value, and a word behind it. -/
theorem moves_verb {key w behind : GoString} {st : Compressor} (hkey : 34 ∉ key)
    (hcode : getCodeListIndex key = 0 ∨ getCodeListIndex key = 9) {verb : Verb}
    (hw : w = verb.word) (hdrop : message.drop offset = quoted key ++ 58 :: quoted w ++ behind) :
    Moves floats pathList message offset st (offset + (quoted key ++ 58 :: quoted w).length)
      ⟨st.tokenState, st.isArray, st.message2 ++ [getCodeListIndex key + 128, verb.code]⟩ := by
  subst hw
  obtain ⟨hverb, hlt, hquote, hnot⟩ := verb.code_eq
  have hdrop' : message.drop offset = quoted key ++ 58 :: (quoted verb.word ++ behind) := by
    rw [hdrop]
    simp
  have hkeyLt : getCodeListIndex key < 26 := by
    obtain h | h := hcode
    all_goals
      rw [h]
      decide
  have hkeyNot : getCodeListIndex key ∉ [codeListIndexTs, codeListIndexValue, codeListIndexPath,
      codeListIndexReqId, codeListIndexSubId] := by
    obtain h | h := hcode
    all_goals
      rw [h]
      decide
  have hmove : Moves floats pathList message _ st _ _ :=
    moves_key hkey hkeyLt hdrop'
  rw [if_neg hkeyNot] at hmove
  have hbehind : message.drop (offset + ((quoted key).length + 1)) =
      quoted verb.word ++ behind := by
    rw [← Nat.add_assoc, ← List.drop_drop, drop_behind hdrop']
    rfl
  have hword : Moves floats pathList message _
    ⟨st.tokenState, st.isArray, st.message2 ++ [getCodeListIndex key + 128]⟩ _ _ :=
    Moves.token hbehind
    (List.cons_ne_nil _ _) (readUncompressedMessage_quoted hquote hbehind)
    (by rw [compressToken_quoted, if_pos hlt, if_neg hnot])
  have hoffset : offset + (quoted key ++ 58 :: quoted verb.word).length =
      offset + ((quoted key).length + 1) + (quoted verb.word).length := by
    simp only [List.length_append, List.length_cons]
    omega
  have hmoves := hmove.trans hword
  rw [hoffset]
  convert hmoves using 1
  simp [hverb]

/-- A token that is no word, kept as it is or coded as a text. -/
theorem moves_authorization {token behind : GoString} {isOpen : Bool} {c : UInt8}
    (htoken : 34 ∉ token) (hcode : getCodeListIndex token = 255)
    (htype : isOpen = true → analyzeValueType floats token = 0) (hc : c ≠ 58)
    (hdrop : message.drop offset =
      quoted (str "authorization") ++ 58 :: quoted token ++ c :: behind) :
    Moves floats pathList message offset ⟨openState isOpen, false, out⟩
      (offset + (quoted (str "authorization") ++ 58 :: quoted token).length)
      ⟨255, false, out ++ 137 :: (if isOpen then valueCode floats token else quoted token)⟩ := by
  have hdrop' : message.drop offset =
      quoted (str "authorization") ++ 58 :: (quoted token ++ c :: behind) := by
    rw [hdrop]
    simp
  have hkey : Moves floats pathList message _ ⟨openState isOpen, false, out⟩ _ _ :=
    moves_key (by decide) (by decide) hdrop'
  have hkeyNot : getCodeListIndex (str "authorization") ∉ [codeListIndexTs, codeListIndexValue,
      codeListIndexPath, codeListIndexReqId, codeListIndexSubId] := by decide
  rw [if_neg hkeyNot] at hkey
  have hbehind : message.drop (offset + ((quoted (str "authorization")).length + 1)) =
      quoted token ++ c :: behind := by
    rw [← Nat.add_assoc, ← List.drop_drop, drop_behind hdrop']
    rfl
  have hoffset : offset + (quoted (str "authorization") ++ 58 :: quoted token).length =
      offset + ((quoted (str "authorization")).length + 1) + (quoted token).length := by
    simp only [List.length_append, List.length_cons]
    omega
  rw [hoffset]
  refine hkey.trans (moves_text htoken hcode hbehind ?_)
  obtain ⟨hnext, -, -⟩ := drop_eq_cons (drop_behind hbehind)
  cases isOpen with
  | true =>
    have hbytes : compressValue floats (quoted token) = some (valueCode floats token) := by
      simp only [compressValue, slice_quoted, Option.bind_eq_bind, Option.bind_some, htype rfl,
        valueCode]
      rfl
    have hstate : openState true ∈ [codeListIndexValue, codeListIndexReqId, codeListIndexSubId] := by
      decide
    refine (compressText_value hstate hbytes).trans ?_
    simp
    rfl
  | false =>
    refine (compressText_raw hc hnext).trans ?_
    simp
    rfl

theorem quote_notMem_digits {n : ℕ} (hn : n < 100) : 34 ∉ twoDigits n := by
  have hne : ∀ k < 10, UInt8.ofNat (48 + k) ≠ 34 := by decide
  simp only [twoDigits, List.mem_cons, List.not_mem_nil, or_false, not_or]
  exact ⟨(hne _ (by omega)).symm, (hne _ (by omega)).symm⟩

theorem Timestamp.quote_notMem (t : Timestamp) : 34 ∉ t.text := by
  obtain ⟨y, m, d, h, mi, s, hy, hm, hd, hh, hmi, hs⟩ := t
  have hyear : ¬ (34 : UInt8) = 48 + UInt8.ofNat y := by
    have hne : ∀ k < 10, ¬ (34 : UInt8) = 48 + UInt8.ofNat k := by decide
    exact hne y hy
  simp [Timestamp.text, hyear, quote_notMem_digits (show m < 100 by omega),
    quote_notMem_digits (show d < 100 by omega), quote_notMem_digits (show h < 100 by omega),
    quote_notMem_digits (show mi < 100 by omega), quote_notMem_digits (show s < 100 by omega)]

/-- A timestamp starts with a digit, and no word of the code list does. -/
theorem Timestamp.not_word (t : Timestamp) : getCodeListIndex t.text = 255 := by
  have hwords : ∀ w ∈ codeList, w.head? ≠ some 50 := by decide
  have hnone : codeList.findIdx? (fun w => decide (w = t.text)) = none := by
    rw [List.findIdx?_eq_none_iff]
    intro w hw
    have hne : w ≠ t.text := by
      rintro rfl
      exact hwords _ hw rfl
    simpa using hne
  rw [getCodeListIndex, hnone]

/-- A member that is carried is compressed to its bytes. -/
theorem moves_member (hsorted : pathList.Pairwise (· ≤ ·)) (hlength : pathList.length ≤ 65536)
    {m : Member} {isOpen : Bool} {bytes behind : GoString} {c : UInt8}
    (hkept : m.Kept floats isOpen bytes) (hpaths : ∀ p ∈ m.paths, p ∈ pathList) (hc : c ≠ 58)
    (hdrop : message.drop offset = m.text ++ c :: behind) :
    Moves floats pathList message offset ⟨openState isOpen, false, out⟩ (offset + m.text.length)
      ⟨openState (m.opens isOpen), false, out ++ m.bytes floats pathList isOpen⟩ := by
  have hcoded : ∀ {key v : GoString} {rest : GoString}, 34 ∉ key →
      getCodeListIndex key ∈ [codeListIndexValue, codeListIndexReqId, codeListIndexSubId] →
      34 ∉ v → KeptValue floats v bytes → message.drop offset = quoted key ++ 58 :: quoted v ++ rest →
      Moves floats pathList message offset ⟨openState isOpen, false, out⟩
        (offset + (quoted key ++ 58 :: quoted v).length)
        ⟨255, false, out ++ (getCodeListIndex key + 128) :: valueCode floats v⟩ := by
    intro key v rest hkey hcode hv hvalue hdrop
    have hcode' : getCodeListIndex key ∈ [codeListIndexTs, codeListIndexValue, codeListIndexPath,
        codeListIndexReqId, codeListIndexSubId] := by
      simp only [List.mem_cons, List.not_mem_nil, or_false] at hcode ⊢
      obtain h | h | h := hcode
      · exact .inr (.inl h)
      · exact .inr (.inr (.inr (.inl h)))
      · exact .inr (.inr (.inr (.inr h)))
    refine moves_coded hkey hcode' hv hvalue.1 hdrop ?_
    intro start offset _
    refine (compressText_value hcode (compressValue_quoted hvalue)).trans ?_
    simp
  cases m with
  | action verb =>
    have hmove : Moves floats pathList message _ ⟨openState isOpen, false, out⟩ _ _ :=
      moves_verb (by decide) (.inl (by decide)) rfl hdrop
    exact hmove
  | requestId v => exact hcoded (by decide) (by decide) v.property hkept hdrop
  | subscriptionId v => exact hcoded (by decide) (by decide) v.property hkept hdrop
  | path p =>
    refine moves_coded (by decide) (by decide) p.property hkept.1 hdrop ?_
    intro start offset _
    refine (compressText_path (compressPath_quoted hsorted hlength (hpaths p.val ?_) hkept.2)).trans ?_
    · simp [Member.paths]
    · simp [getCodeListIndex]
  | value v =>
    cases v with
    | one v => exact hcoded (by decide) (by decide) v.property hkept hdrop
    | many vs => exact moves_array hkept hdrop
  | ts t =>
    refine moves_coded (by decide) (by decide) t.quote_notMem t.not_word hdrop ?_
    intro start offset hstart
    refine (compressText_ts (hstart ▸ compressTS_quoted t _)).trans ?_
    simp
  | authorization token =>
    obtain ⟨verb, hverb⟩ | ⟨hcode, -, htype, -, -⟩ := hkept
    · obtain ⟨hword, hlt, -, -⟩ := verb.code_eq
      have hmove : Moves floats pathList message _ ⟨openState isOpen, false, out⟩ _ _ :=
        moves_verb (by decide)
        (.inr (by decide)) hverb hdrop
      simp only [Member.opens, Member.bytes, hverb, hlt, if_pos, decide_true, Bool.and_true, hword]
      exact hmove
    · have hmove : Moves floats pathList message _ ⟨_, _, out⟩ _ _ :=
        moves_authorization token.property hcode
        htype hc hdrop
      have hlt : ¬ getCodeListIndex token.val < 26 := by
        rw [hcode]
        decide
      simp only [Member.opens, Member.bytes, if_neg hlt, decide_eq_false hlt, Bool.and_false]
      cases isOpen
      · exact hmove
      · exact hmove
  | data packs => exact hkept.elim

theorem moves_members (hsorted : pathList.Pairwise (· ≤ ·)) (hlength : pathList.length ≤ 65536)
    {members : List Member} {isOpen : Bool} (hne : members ≠ [])
    (hkept : KeptMessage floats pathList isOpen members) (hlisted : Listed pathList members)
    (hdrop : message.drop offset = commaSeparated (members.map Member.text) ++ [125]) :
    ∃ st, Moves floats pathList message offset ⟨openState isOpen, false, out⟩
        (offset + (commaSeparated (members.map Member.text)).length) st ∧
      st.message2 = out ++ messageBytes floats pathList isOpen members := by
  induction members generalizing offset isOpen out with
  | nil => exact absurd rfl hne
  | cons m rest ih =>
    obtain ⟨hm, -, hrest⟩ := hkept
    have hpaths := hlisted m List.mem_cons_self
    have hlisted' : Listed pathList rest := fun m' hm' => hlisted m' (List.mem_cons_of_mem _ hm')
    cases rest with
    | nil =>
      refine ⟨_, moves_member hsorted hlength hm hpaths (by decide) hdrop, ?_⟩
      simp [messageBytes]
    | cons m' rest =>
      have hdrop' : message.drop offset = m.text ++ 44 ::
          (commaSeparated ((m' :: rest).map Member.text) ++ [125]) := by
        rw [hdrop]
        simp [commaSeparated]
      have hcomma := drop_behind hdrop'
      obtain ⟨-, hbehind, -⟩ := drop_eq_cons hcomma
      have hfirst : Moves floats pathList message _ ⟨_, _, out⟩ _ _ :=
        moves_member hsorted hlength hm hpaths (by decide) hdrop'
      obtain ⟨st, hmoves, hst⟩ := ih (List.cons_ne_nil _ _) hrest hlisted' hbehind
      have hoffset : offset + (commaSeparated ((m :: m' :: rest).map Member.text)).length =
          offset + m.text.length + 1 +
            (commaSeparated ((m' :: rest).map Member.text)).length := by
        simp only [List.map_cons, commaSeparated, List.length_append, List.length_cons]
        omega
      rw [hoffset]
      refine ⟨st, (hfirst.trans (moves_separator (.inl rfl) hcomma)).trans hmoves, ?_⟩
      rw [hst, List.append_assoc]
      rfl

/-- A carried message is compressed to the bytes of its members. -/
theorem compressMessage_kept (hsorted : pathList.Pairwise (· ≤ ·))
    (hlength : pathList.length ≤ 65536) {members : List Member} (hne : members ≠ [])
    (hkept : KeptMessage floats pathList false members) (hlisted : Listed pathList members) :
    compressMessage floats pathList (messageText members) =
      some (messageBytes floats pathList false members) := by
  set text := commaSeparated (members.map Member.text) with htext
  have hmessage : (messageText members).drop 0 = 123 :: (text ++ [125]) := rfl
  obtain ⟨-, hdrop, -⟩ := drop_eq_cons hmessage
  obtain ⟨st, hmoves, hst⟩ :=
    moves_members hsorted hlength hne hkept hlisted hdrop
  have hopening : Moves floats pathList (messageText members) 0 ⟨255, false, []⟩ _ _ :=
    moves_byte (by decide) (by decide) hmessage
  have hclosing : Moves floats pathList (messageText members) _ st _ _ :=
    moves_byte (by decide) (by decide) (drop_behind hdrop)
  have hend : 0 + 1 + text.length + 1 = (messageText members).length := by
    simp only [messageText, objectText, htext, List.length_cons, List.length_append,
      List.length_nil]
    omega
  have hopen : compressByte (messageText members) (0 + 1) 123 ⟨255, false, []⟩ =
      ⟨255, false, []⟩ := by simp [compressByte]
  have hclose : compressByte (messageText members) (0 + 1 + text.length + 1) 125 st = st := by
    rw [hend]
    simp [compressByte]
  rw [hopen] at hopening
  rw [hclose, hend] at hclosing
  rw [((hopening.trans hmoves).trans hclosing).compressMessage, hst, List.nil_append]

end Members

end VissServer.Utils
