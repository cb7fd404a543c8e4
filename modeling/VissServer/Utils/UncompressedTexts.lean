import VissServer.Go.JsonPieces
import VissServer.Utils.RoundTrip

/-!
What DecompressMessage makes of a JSON text that is not compressed. Bytes below 128 stay as they
are, but a comma comes between the braces of }{ wherever they stand; bytes from 128 on, which only
the strings of a text can have, are read as codes.
-/
namespace VissServer.Utils

open VissServer.Go

/-! ## The bytes of a text -/

section Bytes

variable {floats : Floats} {pathList : List GoString} {message : GoString} {offset fuel : ℕ}
  {s rest out : GoString} {b : UInt8}

/-- The loop gives the text of a token and goes on behind it. -/
theorem decompressFrom_token (hb : message[offset]? = some b)
    (h : decompressFrom floats pathList message fuel offset = some out) :
    ∃ token n fuel' out', readCompressedMessage floats pathList message offset = some (token, n) ∧
      out = token ++ out' ∧ decompressFrom floats pathList message fuel' (offset + n) = some out' := by
  obtain ⟨-, hlt⟩ := drop_of_getElem? hb
  cases fuel with
  | zero =>
    rw [decompressFrom, if_pos hlt] at h
    cases h
  | succ fuel =>
    rw [decompressFrom, if_pos hlt] at h
    simp only [Option.bind_eq_bind, Option.bind_eq_some_iff, Option.some.injEq] at h
    obtain ⟨⟨token, n⟩, hread, out', hout', rfl⟩ := h
    exact ⟨token, n, fuel, out', hread, rfl, hout'⟩

/-- A byte below 128 that does not part }{ stays as it is. -/
theorem decompressFrom_byte (hdrop : message.drop offset = b :: rest) (hlow : b < 128)
    (hnext : ¬ (b = 125 ∧ rest.head? = some 123))
    (h : decompressFrom floats pathList message fuel offset = some out) : ∃ fuel' out',
      out = b :: out' ∧
        decompressFrom floats pathList message fuel' (offset + 1) = some out' := by
  obtain ⟨hb, hrest, -⟩ := drop_eq_cons hdrop
  have hhead : message[offset + 1]? = rest.head? := by
    rw [← hrest, List.head?_drop]
  obtain ⟨token, n, fuel', out', hread, rfl, hout'⟩ := decompressFrom_token hb h
  rw [readCompressedMessage_byte hb hlow, hhead, if_neg hnext] at hread
  obtain ⟨rfl, rfl⟩ := Prod.mk.inj (Option.some.inj hread)
  exact ⟨fuel', out', rfl, hout'⟩

theorem decompressFrom_parted (hdrop : message.drop offset = 125 :: 123 :: rest)
    (h : decompressFrom floats pathList message fuel offset = some out) :
    ∃ out', out = 125 :: 44 :: out' := by
  obtain ⟨hb, hrest, -⟩ := drop_eq_cons hdrop
  have hnext : message[offset + 1]? = some 123 := (drop_eq_cons hrest).1
  obtain ⟨token, n, -, out', hread, rfl, -⟩ := decompressFrom_token hb h
  rw [readCompressedMessage_byte hb (by decide), if_pos ⟨rfl, hnext⟩] at hread
  obtain ⟨rfl, -⟩ := Prod.mk.inj (Option.some.inj hread)
  exact ⟨out', rfl⟩

/-- The code of a keyword gives a text that begins with a quote. -/
theorem decompressFrom_keyword (hdrop : message.drop offset = b :: rest) (hhigh : 128 ≤ b)
    (hcode : b < 143)
    (h : decompressFrom floats pathList message fuel offset = some out) :
    ∃ out', out = 34 :: out' := by
  obtain ⟨hb, -, -⟩ := drop_eq_cons hdrop
  obtain ⟨token, n, -, out', hread, rfl, -⟩ := decompressFrom_token hb h
  have hlt : b - 128 < codeListKeyValues := by
    rw [UInt8.lt_iff_toNat_lt, UInt8.toNat_sub_of_le _ _ hhigh]
    simp only [UInt8.lt_iff_toNat_lt, UInt8.le_iff_toNat_le, UInt8.reduceToNat,
      codeListKeyValues] at hhigh hcode ⊢
    omega
  simp only [readCompressedMessage, hb, Option.bind_eq_bind, Option.bind_some, if_pos hhigh,
    keyword, if_pos hlt, Option.bind_eq_some_iff, Option.some.injEq, Prod.mk.injEq] at hread
  obtain ⟨-, ⟨word, -, rfl⟩, -, -, -, -, rfl, -⟩ := hread
  exact ⟨_, rfl⟩

/-- The codes behind those of the keywords give nothing. -/
theorem decompressFrom_dropped (hdrop : message.drop offset = b :: rest) (hcode : 143 ≤ b)
    (h : decompressFrom floats pathList message fuel offset = some out) : ∃ fuel',
      decompressFrom floats pathList message fuel' (offset + 1) = some out := by
  obtain ⟨hb, -, -⟩ := drop_eq_cons hdrop
  obtain ⟨token, n, fuel', out', hread, rfl, hout'⟩ := decompressFrom_token hb h
  have hhigh : 128 ≤ b := UInt8.le_trans (by decide) hcode
  have hge : ¬ b - 128 < codeListKeyValues := by
    rw [UInt8.lt_iff_toNat_lt, UInt8.toNat_sub_of_le _ _ hhigh]
    simp only [UInt8.le_iff_toNat_le, UInt8.reduceToNat, codeListKeyValues] at hhigh hcode ⊢
    omega
  have hother : b ∉ [129, 130, 131, 132, 133] := by
    intro hmem
    rw [UInt8.le_iff_toNat_le] at hcode
    simp only [List.mem_cons, List.not_mem_nil, or_false] at hmem
    obtain rfl | rfl | rfl | rfl | rfl := hmem
    all_goals exact absurd hcode (by decide)
  rw [readCompressedMessage_code hb hhigh (operand_other hother), keyword, if_neg hge, codeComma,
    if_neg (fun hcomma => hge hcomma.1)] at hread
  obtain ⟨rfl, rfl⟩ := Prod.mk.inj (Option.some.inj hread)
  exact ⟨fuel', hout'⟩

/-- Bytes below 128 other than closing braces stay as they are. -/
theorem decompressFrom_bytes (hs : ∀ c ∈ s, c < 128 ∧ c ≠ 125)
    (hdrop : message.drop offset = s ++ rest)
    (h : decompressFrom floats pathList message fuel offset = some out) : s <+: out := by
  induction s generalizing offset fuel out with
  | nil => exact List.nil_prefix
  | cons c s ih =>
    obtain ⟨⟨hlow, hbrace⟩, hs⟩ := List.forall_mem_cons.mp hs
    obtain ⟨fuel', out', rfl, hout'⟩ :=
      decompressFrom_byte hdrop hlow (fun hnext => hbrace hnext.1) h
    exact List.cons_prefix_cons.mpr ⟨rfl, ih hs (drop_eq_cons hdrop).2.1 hout'⟩

end Bytes

/-! ## Strings -/

/-- No opening brace directly behind a closing one. -/
def Unparted (text : GoString) : Prop := text.IsChain fun a b => ¬ (a = 125 ∧ b = 123)

instance (text : GoString) : Decidable (Unparted text) :=
  inferInstanceAs (Decidable (text.IsChain fun a b => ¬ (a = 125 ∧ b = 123)))

theorem Unparted.cons_of_ne {c : UInt8} {s : GoString} (hc : c ≠ 125) (h : Unparted s) :
    Unparted (c :: s) :=
  List.isChain_cons.mpr ⟨fun _ _ hparted => hc hparted.1, h⟩

theorem Unparted.append_quote {s t : GoString} (h : Unparted s) (h' : Unparted t) :
    Unparted (s ++ 34 :: t) := by
  refine List.isChain_append.mpr ⟨h, Unparted.cons_of_ne (by decide) h', ?_⟩
  rintro a - b hb ⟨-, rfl⟩
  simp at hb

/-- What can become of a string, up to the quote that closes it, if it is not kept: its bytes from
128 on are left out, a keyword ends it, or it is parted by a comma. -/
inductive Blurred (raw : GoString) : GoString → Prop
  | dropped {c : UInt8} {rest : GoString} : c ∈ raw → 128 ≤ c →
      Blurred raw (lowBytes raw ++ 34 :: rest)
  | ended {before behind rest : GoString} {c : UInt8} : raw = before ++ c :: behind → 128 ≤ c →
      Blurred raw (lowBytes before ++ 34 :: rest)
  | parted {before behind rest : GoString} : raw = before ++ 125 :: 123 :: behind →
      Blurred raw (lowBytes before ++ 125 :: 44 :: rest)

section Strings

variable {floats : Floats} {pathList : List GoString} {message : GoString} {offset fuel : ℕ}
  {raw w w' behind out : GoString}

theorem lowBytes_cons_low {c : UInt8} (hc : c < 128) (s : GoString) :
    lowBytes (c :: s) = c :: lowBytes s :=
  List.filter_cons_of_pos (decide_eq_true hc)

theorem lowBytes_cons_high {c : UInt8} (hc : 128 ≤ c) (s : GoString) :
    lowBytes (c :: s) = lowBytes s :=
  List.filter_cons_of_neg (by rw [decide_eq_true_eq]; exact UInt8.not_lt.mpr hc)

theorem Blurred.cons_low {c : UInt8} (hc : c < 128) (h : Blurred raw out) :
    Blurred (c :: raw) (c :: out) := by
  cases h with
  | dropped hmem hhigh =>
    rw [← List.cons_append, ← lowBytes_cons_low hc]
    exact .dropped (List.mem_cons_of_mem _ hmem) hhigh
  | ended hraw hhigh =>
    rw [← List.cons_append, ← lowBytes_cons_low hc]
    exact .ended (congrArg (List.cons c) hraw) hhigh
  | parted hraw =>
    rw [← List.cons_append, ← lowBytes_cons_low hc]
    exact .parted (congrArg (List.cons c) hraw)

theorem Blurred.cons_high {c : UInt8} (hc : 128 ≤ c) (h : Blurred raw out) :
    Blurred (c :: raw) out := by
  cases h with
  | dropped hmem hhigh =>
    rw [← lowBytes_cons_high hc]
    exact .dropped (List.mem_cons_of_mem _ hmem) hhigh
  | ended hraw hhigh =>
    rw [← lowBytes_cons_high hc]
    exact .ended (congrArg (List.cons c) hraw) hhigh
  | parted hraw =>
    rw [← lowBytes_cons_high hc]
    exact .parted (congrArg (List.cons c) hraw)

/-- The bytes of a string up to its closing quote. -/
theorem decompressFrom_string (hdrop : message.drop offset = raw ++ 34 :: behind)
    (h : decompressFrom floats pathList message fuel offset = some out) :
    Unparted raw ∧ (∃ fuel' out', out = lowBytes raw ++ out' ∧
      decompressFrom floats pathList message fuel' (offset + raw.length) = some out') ∨
    Blurred raw out := by
  induction raw generalizing offset fuel out with
  | nil => exact .inl ⟨.nil, fuel, out, rfl, h⟩
  | cons c raw ih =>
    have hrest := (drop_eq_cons hdrop).2.1
    have hoffset : offset + (c :: raw).length = offset + 1 + raw.length := by
      rw [List.length_cons]
      omega
    rw [hoffset]
    by_cases hlow : c < 128
    · by_cases hnext : c = 125 ∧ raw.head? = some 123
      · obtain ⟨rfl, hhead⟩ := hnext
        obtain ⟨raw', rfl⟩ := List.head?_eq_some_iff.mp hhead
        obtain ⟨out', rfl⟩ := decompressFrom_parted hdrop h
        exact .inr (@Blurred.parted _ [] _ _ rfl)
      · have hnext' : ¬ (c = 125 ∧ (raw ++ 34 :: behind).head? = some 123) := by
          cases raw with
          | nil => simp
          | cons d raw => exact hnext
        obtain ⟨fuel', out', rfl, hout'⟩ := decompressFrom_byte hdrop hlow hnext' h
        rw [lowBytes_cons_low hlow]
        obtain ⟨hunparted, fuel'', out'', rfl, hout''⟩ | hblurred := ih hrest hout'
        · refine .inl ⟨List.isChain_cons.mpr ⟨?_, hunparted⟩, fuel'', out'', rfl, hout''⟩
          rintro d hd ⟨hc, rfl⟩
          exact hnext ⟨hc, hd⟩
        · exact .inr (hblurred.cons_low hlow)
    · have hhigh : 128 ≤ c := UInt8.not_lt.mp hlow
      by_cases hcode : c < 143
      · obtain ⟨out', rfl⟩ := decompressFrom_keyword hdrop hhigh hcode h
        exact .inr (@Blurred.ended _ [] _ _ _ rfl hhigh)
      · obtain ⟨fuel', hout'⟩ := decompressFrom_dropped hdrop (UInt8.not_lt.mp hcode) h
        rw [lowBytes_cons_high hhigh]
        obtain ⟨hunparted, hkept⟩ | hblurred := ih hrest hout'
        · refine .inl ⟨List.isChain_cons.mpr ⟨?_, hunparted⟩, hkept⟩
          rintro d hd ⟨rfl, -⟩
          exact absurd hhigh (by decide)
        · exact .inr (hblurred.cons_high hhigh)

/-- Texts with the same number of characters below 128 in front of a closing brace. -/
theorem front_eq {u v x y : GoString} (hcount : asciiCount u = asciiCount v)
    (heq : u ++ 125 :: x = v ++ 125 :: y) : u = v := by
  have hnil : ∀ {s more x' y' : GoString}, asciiCount (s ++ more) = asciiCount s →
      125 :: x' = more ++ 125 :: y' → more = [] := by
    intro s more x' y' hcount heq
    cases more with
    | nil => rfl
    | cons c more =>
      obtain rfl := (List.cons.inj heq).1
      rw [asciiCount, asciiCount, List.countP_append, List.countP_cons_of_pos (by decide)] at hcount
      omega
  obtain ⟨more, rfl, hmore⟩ | ⟨more, rfl, hmore⟩ := List.append_eq_append_iff.mp heq
  · rw [hnil hcount.symm hmore, List.append_nil]
  · rw [hnil hcount hmore, List.append_nil]

/-- A blurred string is not read as the string that it was. -/
theorem Blurred.ne {raw' rest rest' : GoString} (h : Blurred raw out) (hraw : Spelled raw w)
    (hraw' : Spelled raw' w') (heq : out ++ rest = raw' ++ 34 :: rest') : w ≠ w' := by
  rintro rfl
  -- A string that has only the bytes below 128 of the first is too short for its value.
  have hshort : ∀ {front v rest}, Spelled front v → weigh (fun _ => 1) front < codeUnits w →
      lowBytes front ++ 34 :: rest = raw' ++ 34 :: rest' → False := by
    intro front v rest hfront hlt heq
    obtain ⟨rfl, -⟩ := hfront.rawString_lowBytes.append_inj hraw'.rawString heq
    have hlow : ∀ c ∈ lowBytes front, c < 128 := fun c hc =>
      of_decide_eq_true (List.mem_filter.mp hc).2
    rw [hraw'.codeUnits_eq hlow, hfront.weigh_lowBytes] at hlt
    exact lt_irrefl _ hlt
  cases h with
  | dropped hmem hhigh =>
    rw [List.append_assoc, List.cons_append] at heq
    exact hshort hraw (hraw.codeUnits_gt hmem hhigh) heq
  | @ended before behind _ c hsplit hhigh =>
    rw [List.append_assoc, List.cons_append] at heq
    have hmem : c ∈ raw := by
      rw [hsplit]
      simp
    have hlt := hraw.codeUnits_gt hmem hhigh
    rw [hsplit] at hraw hlt
    obtain ⟨front, v, hfront, hlow, hle⟩ := @Spelled.cut_high (fun _ => 1) _ _ _ _ hhigh hraw
    rw [← hlow] at heq
    exact hshort hfront (lt_of_le_of_lt hle hlt) heq
  | @parted before behind _ hsplit =>
    rw [hsplit] at hraw
    obtain ⟨v, x, rfl, hbefore, hbehind⟩ := hraw.split_brace
    obtain ⟨x, rfl, -⟩ := hbehind.head (by decide) (by decide)
    rw [List.append_assoc, List.cons_append, List.cons_append] at heq
    obtain ⟨more, rfl, -, hmore⟩ := hbefore.rawString_lowBytes.append_cut hraw'.rawString heq
    have hcomma : ∃ more', more = 125 :: 44 :: more' := by
      cases more with
      | nil => exact absurd (List.cons.inj hmore).1 (by decide)
      | cons c more =>
        obtain ⟨rfl, htail⟩ := List.cons.inj hmore
        cases more with
        | nil => exact absurd (List.cons.inj htail).1 (by decide)
        | cons d more =>
          obtain ⟨rfl, -⟩ := List.cons.inj htail
          exact ⟨more, rfl⟩
    obtain ⟨more', rfl⟩ := hcomma
    obtain ⟨u, y, heq', hbefore', hbehind'⟩ := hraw'.split_brace
    obtain ⟨y, rfl, -⟩ := hbehind'.head (by decide) (by decide)
    have hcount : asciiCount v = asciiCount u := by
      rw [hbefore.asciiCount_eq, hbefore'.asciiCount_eq, hbefore.weigh_lowBytes]
    obtain rfl := front_eq hcount heq'
    have hnext := (List.cons.inj (List.cons.inj (List.append_cancel_left heq')).2).1
    exact absurd hnext (by decide)

end Strings

/-! ## Texts -/

section Texts

variable {floats : Floats} {pathList : List GoString} {message : GoString} {offset fuel : ℕ}
  {closed ends : Bool} {text out : GoString} {pieces : List Piece}

/-- What can become of a text that is not kept: its first string that is not kept is blurred. -/
def Garbled (closed : Bool) (text : GoString) (pieces : List Piece) (out : GoString) : Prop :=
  ∃ front middle raw w behind blurred ahead after, text = front ++ 34 :: (raw ++ 34 :: behind) ∧
    Written closed front middle ahead ∧ pieces = ahead ++ .string raw w :: after ∧
    Spelled raw w ∧ out = front ++ 34 :: blurred ∧ Blurred raw blurred

/-- The loop keeps a text of bytes below 128 without }{ and garbles any other. -/
theorem decompressFrom_written (h : Written closed text ends pieces)
    (hdrop : message.drop offset = text)
    (hrun : decompressFrom floats pathList message fuel offset = some out) :
    out = text ∧ (∀ c ∈ text, c < 128) ∧ Unparted text ∨ Garbled closed text pieces out := by
  induction h generalizing offset fuel out with
  | nil =>
    have hend : ¬ offset < message.length := Nat.not_lt.mpr (List.drop_eq_nil_iff.mp hdrop)
    have hnil : out = [] := by
      cases fuel with
      | zero =>
        rw [decompressFrom, if_neg hend] at hrun
        exact (Option.some.inj hrun).symm
      | succ fuel =>
        rw [decompressFrom, if_neg hend] at hrun
        exact (Option.some.inj hrun).symm
    exact .inl ⟨hnil, by simp, .nil⟩
  | @bare closed _ c s _ hc hbrace hopen _ ih =>
    obtain ⟨fuel', out', rfl, hout'⟩ :=
      decompressFrom_byte hdrop (lt_of_isBare hc) (fun hnext => hbrace hnext.1) hrun
    obtain ⟨rfl, hlow, hunparted⟩ | hgarbled := ih (drop_eq_cons hdrop).2.1 hout'
    · exact .inl ⟨rfl, List.forall_mem_cons.mpr ⟨lt_of_isBare hc, hlow⟩,
        .cons_of_ne hbrace hunparted⟩
    · obtain ⟨front, middle, raw, w, behind, blurred, ahead, after, rfl, hfront, hpieces, hraw,
        rfl, hblurred⟩ := hgarbled
      exact .inr ⟨c :: front, middle, raw, w, behind, blurred, ahead, after, rfl,
        .bare hc hbrace hopen hfront, hpieces, hraw, rfl, hblurred⟩
  | @close closed _ s _ hs ih =>
    obtain ⟨fuel', out', rfl, hout'⟩ :=
      decompressFrom_byte hdrop (by decide) (fun hnext => hs.not_open hnext.2) hrun
    obtain ⟨rfl, hlow, hunparted⟩ | hgarbled := ih (drop_eq_cons hdrop).2.1 hout'
    · refine .inl ⟨rfl, List.forall_mem_cons.mpr ⟨by decide, hlow⟩,
        List.isChain_cons.mpr ⟨?_, hunparted⟩⟩
      rintro d hd ⟨-, rfl⟩
      exact hs.not_open hd
    · obtain ⟨front, middle, raw, w, behind, blurred, ahead, after, rfl, hfront, rfl, hraw,
        rfl, hblurred⟩ := hgarbled
      exact .inr ⟨125 :: front, middle, raw, w, behind, blurred, .close :: ahead, after, rfl,
        .close hfront, rfl, hraw, rfl, hblurred⟩
  | @string closed _ raw w s pieces hraw hs ih =>
    obtain ⟨fuel', out', rfl, hout'⟩ :=
      decompressFrom_byte hdrop (by decide) (fun hnext => absurd hnext.1 (by decide)) hrun
    have hdrop' := (drop_eq_cons hdrop).2.1
    have hblur : Blurred raw out' → Garbled closed (34 :: (raw ++ 34 :: s))
        (.string raw w :: pieces) (34 :: out') := fun hblurred =>
      ⟨[], closed, raw, w, s, out', [], pieces, rfl, .nil, rfl, hraw, rfl, hblurred⟩
    obtain ⟨hunparted, fuel₁, out₁, rfl, hout₁⟩ | hblurred := decompressFrom_string hdrop' hout'
    · have hquote := drop_behind hdrop'
      obtain ⟨fuel₂, out₂, rfl, hout₂⟩ :=
        decompressFrom_byte hquote (by decide) (fun hnext => absurd hnext.1 (by decide)) hout₁
      by_cases hlow : ∀ c ∈ raw, c < 128
      · rw [lowBytes_of_low hlow]
        obtain ⟨rfl, hlow', hunparted'⟩ | hgarbled := ih (drop_eq_cons hquote).2.1 hout₂
        · refine .inl ⟨rfl, ?_, .cons_of_ne (by decide) (hunparted.append_quote hunparted')⟩
          exact List.forall_mem_cons.mpr ⟨by decide, List.forall_mem_append.mpr
            ⟨hlow, List.forall_mem_cons.mpr ⟨by decide, hlow'⟩⟩⟩
        · obtain ⟨front, middle, raw', w', behind, blurred, ahead, after, rfl, hfront, rfl, hraw',
            rfl, hblurred⟩ := hgarbled
          refine .inr ⟨34 :: (raw ++ 34 :: front), middle, raw', w', behind, blurred,
            .string raw w :: ahead, after, by simp, .string hraw hfront, rfl, hraw', by simp,
            hblurred⟩
      · rw [not_forall] at hlow
        obtain ⟨c, hc⟩ := hlow
        rw [Classical.not_imp] at hc
        exact .inr (hblur (.dropped hc.1 (UInt8.not_lt.mp hc.2)))
    · exact .inr (hblur hblurred)

/-- A garbled text does not denote the object that it was. -/
theorem Garbled.not_decodes {v : Json} {rest : GoString} (h : Garbled false text pieces out)
    (hpieces : pieces.map Piece.value = shown v) : ¬ Decodes (out ++ rest) v := by
  intro hdecodes
  obtain ⟨front, middle, raw, w, behind, blurred, ahead, after, -, hfront, rfl, hraw, rfl,
    hblurred⟩ := h
  obtain ⟨ends, pieces', hwritten, hshown⟩ := hdecodes.written
  rw [List.append_assoc] at hwritten
  obtain ⟨ahead', behind', rfl, hlength, hrest⟩ := hfront.cut hwritten
  rw [List.cons_append] at hrest
  obtain ⟨raw', w', after', rest', heq, rfl, hraw', -⟩ := hrest.of_quote
  have hvalues : ahead.map Piece.value ++ some w :: after.map Piece.value =
      ahead'.map Piece.value ++ some w' :: after'.map Piece.value := by
    rw [← hpieces] at hshown
    simpa [Piece.value] using hshown.symm
  have htails := List.append_inj_right hvalues (by simp [hlength])
  exact hblurred.ne hraw hraw' heq (Option.some.inj (List.cons.inj htails).1)

/-- An object with white space in front does not denote anything behind another brace. -/
theorem not_decodes_brace {space body : GoString} {v : Json}
    (hspace : ∀ c ∈ space, isSpace c = true) : ¬ Decodes (123 :: (space ++ 123 :: body)) v := by
  rintro ⟨depth, rest, hvalue, -⟩
  rw [skipSpace_of_head rfl] at hvalue
  cases depth with
  | zero => simp [parseValue] at hvalue
  | succ depth =>
    have hskip : skipSpace (space ++ 123 :: body) = 123 :: body := by
      rw [skipSpace_append hspace, skipSpace_of_head rfl]
    have hnone : readMembers (parseValue depth) (space ++ 123 :: body).length
        (space ++ 123 :: body) = none := by
      cases (space ++ 123 :: body).length with
      | zero => rfl
      | succ n =>
        rw [readMembers, hskip, expect_of_ne (by decide)]
        rfl
    rw [parseValue_brace, readObject, hskip, expect_of_ne (by decide), hnone] at hvalue
    cases hvalue

/-- A text that is kept does not denote the object if a brace is put behind it. -/
theorem not_decodes_append_brace {v : Json} (h : Written false text ends pieces)
    (hpieces : pieces.map Piece.value = shown v) : ¬ Decodes (text ++ [125]) v := by
  intro hdecodes
  obtain ⟨ends', pieces', hwritten, hshown⟩ := hdecodes.written
  obtain ⟨ahead, behind, rfl, hlength, hrest⟩ := h.cut hwritten
  obtain ⟨behind', rfl, -⟩ := hrest.of_close
  have hlengths := congrArg List.length (hshown.trans hpieces.symm)
  simp only [List.length_map, List.length_append, List.length_cons] at hlengths
  omega

/-- A message whose loop comes to its end. -/
theorem decompressMessage_eq_some (hne : message ≠ []) :
    decompressMessage floats pathList message = some out ↔
      ∃ text, decompressFrom floats pathList message message.length 0 = some text ∧
        out = (if message.head? = some 123 then [] else [123]) ++ text ++
          (if message.getLast? = some 125 then [] else [125]) := by
  rw [decompressMessage, decompressWithin, if_neg hne]
  simp only [Option.bind_eq_bind, Option.bind_eq_some_iff, Option.some.injEq]
  exact exists_congr fun text => and_congr_right fun _ => eq_comm

/-- A text that keeps its object has no bytes from 128 on, no }{ and nothing around the object. -/
theorem plain_of_kept {members : List (GoString × Json)} (h : Decodes text (.obj members))
    (hout : decompressMessage floats pathList text = some out)
    (hdecodes : Decodes out (.obj members)) :
    text.head? = some 123 ∧ text.getLast? = some 125 ∧ (∀ c ∈ text, c < 128) ∧
      Unparted text := by
  obtain ⟨space, body, htext, hspace⟩ := h.object
  obtain ⟨ends, pieces, hwritten, hshown⟩ := h.written
  have hne : text ≠ [] := by
    rw [htext]
    simp
  obtain ⟨kept, hkept, rfl⟩ := (decompressMessage_eq_some hne).mp hout
  have hhead : text.head? = some 123 := by
    by_contra hhead
    have hfront : ∀ c ∈ space ++ [123], c < 128 ∧ c ≠ 125 := by
      refine List.forall_mem_append.mpr ⟨fun c hc => ?_, List.forall_mem_singleton.mpr (by decide)⟩
      have hinner := isInner_of_isSpace (hspace c hc)
      simp only [isInner, Bool.and_eq_true, decide_eq_true_eq] at hinner
      exact ⟨lt_of_isBare hinner.1.1, hinner.2⟩
    have hdrop : text.drop 0 = space ++ [123] ++ body := by
      rw [List.drop_zero, htext, List.append_assoc, List.singleton_append]
    obtain ⟨more, rfl⟩ := decompressFrom_bytes hfront hdrop hkept
    rw [if_neg hhead, List.append_assoc space, List.singleton_append, List.singleton_append,
      List.cons_append, List.append_assoc, List.cons_append] at hdecodes
    exact not_decodes_brace hspace hdecodes
  rw [if_pos hhead, List.nil_append] at hdecodes
  obtain ⟨rfl, hlow, hunparted⟩ | hgarbled :=
    decompressFrom_written hwritten List.drop_zero hkept
  · refine ⟨hhead, ?_, hlow, hunparted⟩
    by_contra hlast
    rw [if_neg hlast] at hdecodes
    exact not_decodes_append_brace hwritten hshown hdecodes
  · exact absurd hdecodes (hgarbled.not_decodes hshown)

/-- The texts of objects that DecompressMessage keeps the object of; it leaves them as they are. -/
theorem uncompressed_iff (floats : Floats) (pathList : List GoString) {text : GoString}
    {members : List (GoString × Json)} (h : Decodes text (.obj members)) :
    (∃ out, decompressMessage floats pathList text = some out ∧ Decodes out (.obj members)) ↔
      text.head? = some 123 ∧ text.getLast? = some 125 ∧ (∀ c ∈ text, c < 128) ∧
        Unparted text := by
  constructor
  · intro hkept
    obtain ⟨out, hout, hdecodes⟩ := hkept
    exact plain_of_kept h hout hdecodes
  · intro hplain
    obtain ⟨hhead, hlast, hlow, hunparted⟩ := hplain
    have hne : text ≠ [] := by
      rintro rfl
      cases hhead
    refine ⟨text, (decompressMessage_eq_some hne).mpr ⟨text, ?_, ?_⟩, h⟩
    · have hemits : Emits floats pathList text 0 text (0 + text.length) :=
        emits_raw hlow hunparted List.drop_zero
      rw [Nat.zero_add] at hemits
      exact hemits.all
    · rw [if_pos hhead, if_pos hlast, List.nil_append, List.append_nil]

end Texts

/-- A get request with the request id 7 is left as it is. -/
theorem uncompressed_get : ∃ out,
    decompressMessage sampleFloats [] (str "\x7b\"action\":\"get\",\"requestId\":\"7\"\x7d") =
      some out ∧ Decodes out (.obj [(str "action", .str (str "get")),
        (str "requestId", .str (str "7"))]) :=
  (uncompressed_iff sampleFloats [] (decodes_of_parseText rfl)).mpr
    ⟨rfl, rfl, by decide +kernel, by decide +kernel⟩

/-- A letter outside of ASCII is lost. -/
theorem uncompressed_blurred : ¬ ∀ floats pathList text members, Decodes text (.obj members) →
    ∃ out, decompressMessage floats pathList text = some out ∧ Decodes out (.obj members) := by
  intro h
  have htext : Decodes (str "\x7b\"a\":\"\u00e9\"\x7d") (.obj [(str "a", .str (str "\u00e9"))]) :=
    decodes_of_parseText rfl
  obtain ⟨out, hout, hdecodes⟩ := h sampleFloats [] _ _ htext
  obtain ⟨-, -, hlow, -⟩ := plain_of_kept htext hout hdecodes
  exact absurd (hlow 195 (by decide +kernel)) (by decide)

end VissServer.Utils
