import VissServer.Go.JsonSpelling
import VissServer.Go.JsonSplice

/-!
JSON texts piece by piece: the strings and the ends of objects that a text shows, and the bytes
between them. No object stands directly behind the end of another one.
-/
namespace VissServer.Go

/-- The bytes that a text can have outside of its strings. -/
def isBare (c : UInt8) : Bool :=
  isSpace c || isDigit c || c ∈ str ",:[]\x7b\x7d+-.eE" || c ∈ str "truefalsenull"

/-- What a text shows of its value: a string, as it is written and as it is read, or the end of
an object. -/
inductive Piece
  | string (raw value : GoString)
  | close

/-- The string that a piece is read as, if it is one. -/
def Piece.value : Piece → Option GoString
  | .string _ w => some w
  | .close => none

/-- The string of a piece as it is written. -/
def Piece.raw : Piece → Option GoString
  | .string raw _ => some raw
  | .close => none

/-- A text of bare bytes and pieces. The first argument says whether an object ends in front of
the text, the third whether one ends with it. -/
inductive Written : Bool → GoString → Bool → List Piece → Prop
  | nil {closed : Bool} : Written closed [] closed []
  | bare {closed ends : Bool} {c : UInt8} {s : GoString} {pieces : List Piece} :
      isBare c = true → c ≠ 125 → (closed = true → c ≠ 123) → Written false s ends pieces →
      Written closed (c :: s) ends pieces
  | close {closed ends : Bool} {s : GoString} {pieces : List Piece} :
      Written true s ends pieces → Written closed (125 :: s) ends (.close :: pieces)
  | string {closed ends : Bool} {raw w s : GoString} {pieces : List Piece} :
      Spelled raw w → Written false s ends pieces →
      Written closed (34 :: (raw ++ 34 :: s)) ends (.string raw w :: pieces)

mutual

/-- The strings of a value and the ends of its objects, in the order of its text. -/
def shown : Json → List (Option GoString)
  | .null => []
  | .bool _ => []
  | .num _ => []
  | .str s => [some s]
  | .arr items => shownItems items
  | .obj members => shownMembers members ++ [none]

def shownItems : List Json → List (Option GoString)
  | [] => []
  | j :: items => shown j ++ shownItems items

def shownMembers : List (GoString × Json) → List (Option GoString)
  | [] => []
  | (k, j) :: members => some k :: (shown j ++ shownMembers members)

end

section Pieces

variable {closed ends ends' : Bool} {s s' : GoString} {pieces pieces' : List Piece}

theorem Written.append (h : Written closed s ends pieces) (h' : Written ends s' ends' pieces') :
    Written closed (s ++ s') ends' (pieces ++ pieces') := by
  induction h with
  | nil => exact h'
  | bare hc hbrace hopen _ ih => exact .bare hc hbrace hopen (ih h')
  | close _ ih => exact .close (ih h')
  | string hraw _ ih =>
    rw [List.cons_append, List.append_assoc, List.cons_append]
    exact .string hraw (ih h')

/-- The bare bytes other than braces. -/
def isInner (c : UInt8) : Bool := isBare c && c ≠ 123 && c ≠ 125

theorem Written.inner {c : UInt8} (hc : isInner c = true) (h : Written false s ends pieces) :
    Written closed (c :: s) ends pieces := by
  simp only [isInner, Bool.and_eq_true, decide_eq_true_eq] at hc
  exact .bare hc.1.1 hc.2 (fun _ => hc.1.2) h

theorem written_of_inner (h : ∀ c ∈ s, isInner c = true) (closed : Bool) :
    ∃ ends, Written closed s ends [] ∧ (closed = false → ends = false) := by
  induction s generalizing closed with
  | nil => exact ⟨closed, .nil, id⟩
  | cons c s ih =>
    obtain ⟨hc, hs⟩ := List.forall_mem_cons.mp h
    obtain ⟨ends, hwritten, hends⟩ := ih hs false
    exact ⟨ends, .inner hc hwritten, fun _ => hends rfl⟩

theorem lt_of_isBare {c : UInt8} (h : isBare c = true) : c < 128 := by
  simp only [isBare, isSpace, isDigit, Bool.or_eq_true, Bool.and_eq_true,
    decide_eq_true_eq] at h
  obtain ((h | h) | h) | h := h
  · obtain ((rfl | rfl) | rfl) | rfl := h
    all_goals decide
  · exact UInt8.lt_of_le_of_lt h.2 (by decide)
  · exact (show ∀ c ∈ str ",:[]\x7b\x7d+-.eE", c < 128 by decide +kernel) c h
  · exact (show ∀ c ∈ str "truefalsenull", c < 128 by decide +kernel) c h

theorem isInner_of_isSpace {c : UInt8} (h : isSpace c = true) : isInner c = true := by
  have hne : c ≠ 123 ∧ c ≠ 125 := by
    refine ⟨?_, ?_⟩
    all_goals
      rintro rfl
      cases h
  simp [isInner, isBare, h, hne]

theorem isInner_of_isDigit {c : UInt8} (h : isDigit c = true) : isInner c = true := by
  have hne : c ≠ 123 ∧ c ≠ 125 := by
    refine ⟨?_, ?_⟩
    all_goals
      rintro rfl
      cases h
  simp [isInner, isBare, h, hne]

end Pieces

/-! ## Texts that are read -/

/-- What is read of a text is pieces that show the value. -/
def Writes {α : Type} (shows : α → List (Option GoString))
    (value : GoString → Option (α × GoString)) : Prop :=
  ∀ s v r, value s = some (v, r) → ∃ front ends pieces, s = front ++ r ∧
    Written false front ends pieces ∧ pieces.map Piece.value = shows v

theorem written_space {s r : GoString} (h : skipSpace s = r) (closed : Bool) :
    ∃ front ends, s = front ++ r ∧ Written closed front ends [] ∧
      (closed = false → ends = false) := by
  have hinner : ∀ c ∈ s.takeWhile isSpace, isInner c = true :=
    fun c hc => isInner_of_isSpace (List.mem_takeWhile_imp hc)
  obtain ⟨ends, hwritten, hends⟩ := written_of_inner hinner closed
  refine ⟨_, ends, ?_, hwritten, hends⟩
  rw [← h, skipSpace, List.takeWhile_append_dropWhile]

/-- A byte of punctuation with the blanks before it. -/
theorem written_expect {c : UInt8} {s r : GoString} (hc : isInner c = true)
    (h : expect c (skipSpace s) = some r) (closed : Bool) :
    ∃ front, s = front ++ r ∧ Written closed front false [] := by
  obtain ⟨front, ends, hs, hfront, -⟩ := written_space (s := s) rfl closed
  refine ⟨front ++ [c], ?_, hfront.append (.inner hc .nil)⟩
  rw [List.append_assoc, List.singleton_append, ← expect_some h]
  exact hs

/-- The end of an object with the blanks before it. -/
theorem written_close {s r : GoString} (h : expect 125 (skipSpace s) = some r) (closed : Bool) :
    ∃ front, s = front ++ r ∧ Written closed front true [.close] := by
  obtain ⟨front, ends, hs, hfront, -⟩ := written_space (s := s) rfl closed
  refine ⟨front ++ [125], ?_, hfront.append (.close .nil)⟩
  rw [List.append_assoc, List.singleton_append, ← expect_some h]
  exact hs

theorem readDigits_inner {s r : GoString} (h : readDigits s = some r) :
    ∃ front, s = front ++ r ∧ ∀ c ∈ front, isInner c = true := by
  unfold readDigits at h
  split at h
  · cases h
  · refine ⟨s.takeWhile isDigit, ?_, fun c hc => ?_⟩
    · rw [← Option.some.inj h, List.takeWhile_append_dropWhile]
    · exact isInner_of_isDigit (List.mem_takeWhile_imp hc)

theorem readInteger_inner {s r : GoString} (h : readInteger s = some r) :
    ∃ front, s = front ++ r ∧ ∀ c ∈ front, isInner c = true := by
  unfold readInteger at h
  split at h
  · next rest hzero =>
    refine ⟨[48], ?_, by decide +kernel⟩
    rw [expect_some hzero, Option.some.inj h, List.singleton_append]
  · exact readDigits_inner h

theorem readFraction_inner {s r : GoString} (h : readFraction s = some r) :
    ∃ front, s = front ++ r ∧ ∀ c ∈ front, isInner c = true := by
  unfold readFraction at h
  split at h
  · next rest hpoint =>
    obtain ⟨front, rfl, hfront⟩ := readDigits_inner h
    rw [expect_some hpoint]
    exact ⟨46 :: front, rfl, List.forall_mem_cons.mpr ⟨rfl, hfront⟩⟩
  · exact ⟨[], Option.some.inj h, by simp⟩

theorem readExponent_inner {s r : GoString} (h : readExponent s = some r) :
    ∃ front, s = front ++ r ∧ ∀ c ∈ front, isInner c = true := by
  unfold readExponent at h
  split at h
  · exact ⟨[], Option.some.inj h, by simp⟩
  · next c rest =>
    split at h
    · next hc =>
      have hbare : isInner c = true := by
        obtain rfl | rfl := hc
        all_goals rfl
      split at h
      · cases h
      · next d rest' =>
        split at h
        · next hd =>
          have hsign : isInner d = true := by
            obtain rfl | rfl := hd
            all_goals rfl
          obtain ⟨front, rfl, hfront⟩ := readDigits_inner h
          exact ⟨c :: d :: front, rfl, List.forall_mem_cons.mpr
            ⟨hbare, List.forall_mem_cons.mpr ⟨hsign, hfront⟩⟩⟩
        · obtain ⟨front, hrest, hfront⟩ := readDigits_inner h
          exact ⟨c :: front, by rw [hrest, List.cons_append],
            List.forall_mem_cons.mpr ⟨hbare, hfront⟩⟩
    · exact ⟨[], Option.some.inj h, by simp⟩

theorem afterNumber_inner {s r : GoString} (h : afterNumber s = some r) :
    ∃ front, s = front ++ r ∧ ∀ c ∈ front, isInner c = true := by
  simp only [afterNumber, Option.bind_eq_bind, Option.bind_eq_some_iff] at h
  obtain ⟨s₁, hinteger, s₂, hfraction, hexponent⟩ := h
  obtain ⟨integer, hs, hinteger'⟩ := readInteger_inner hinteger
  obtain ⟨fraction, rfl, hfraction'⟩ := readFraction_inner hfraction
  obtain ⟨exponent, rfl, hexponent'⟩ := readExponent_inner hexponent
  have hparts : ∀ c ∈ integer ++ (fraction ++ exponent), isInner c = true :=
    List.forall_mem_append.mpr ⟨hinteger', List.forall_mem_append.mpr ⟨hfraction', hexponent'⟩⟩
  cases hsign : expect 45 s with
  | none =>
    rw [hsign, Option.getD_none] at hs
    exact ⟨_, by rw [hs, List.append_assoc, List.append_assoc], hparts⟩
  | some rest =>
    rw [hsign, Option.getD_some] at hs
    refine ⟨45 :: (integer ++ (fraction ++ exponent)), ?_, List.forall_mem_cons.mpr ⟨rfl, hparts⟩⟩
    rw [expect_some hsign, hs, List.cons_append, List.append_assoc, List.append_assoc]

theorem written_name {name s : GoString} (h : name.isPrefixOf s = true)
    (hname : ∀ c ∈ name, isInner c = true) :
    ∃ front ends, s = front ++ s.drop name.length ∧ Written false front ends [] := by
  obtain ⟨rest, rfl⟩ := List.isPrefixOf_iff_prefix.mp h
  obtain ⟨ends, hwritten, -⟩ := written_of_inner hname false
  exact ⟨name, ends, by rw [List.drop_left], hwritten⟩

theorem parseScalar_writes : Writes shown parseScalar := by
  intro s v r h
  unfold parseScalar at h
  split at h
  · next rest hquote =>
    obtain ⟨⟨w, r'⟩, hstring, heq⟩ := Option.map_eq_some_iff.mp h
    obtain ⟨rfl, rfl⟩ := Prod.mk.inj heq
    obtain ⟨raw, rfl, hraw⟩ := readString_spelled hstring
    refine ⟨34 :: (raw ++ [34]), false, [.string raw w], ?_, .string hraw .nil, ?_⟩
    · rw [expect_some hquote]
      simp
    · rw [shown]
      rfl
  · split_ifs at h with htrue hfalse hnull
    · obtain ⟨rfl, rfl⟩ := Prod.mk.inj (Option.some.inj h)
      obtain ⟨front, ends, hs, hfront⟩ := written_name htrue (by decide +kernel)
      exact ⟨front, ends, [], hs, hfront, by rw [shown, List.map_nil]⟩
    · obtain ⟨rfl, rfl⟩ := Prod.mk.inj (Option.some.inj h)
      obtain ⟨front, ends, hs, hfront⟩ := written_name hfalse (by decide +kernel)
      exact ⟨front, ends, [], hs, hfront, by rw [shown, List.map_nil]⟩
    · obtain ⟨rfl, rfl⟩ := Prod.mk.inj (Option.some.inj h)
      obtain ⟨front, ends, hs, hfront⟩ := written_name hnull (by decide +kernel)
      exact ⟨front, ends, [], hs, hfront, by rw [shown, List.map_nil]⟩
    · obtain ⟨rest, hnumber, heq⟩ := Option.map_eq_some_iff.mp h
      obtain ⟨rfl, rfl⟩ := Prod.mk.inj heq
      obtain ⟨front, hs, hfront⟩ := afterNumber_inner hnumber
      obtain ⟨ends, hwritten, -⟩ := written_of_inner hfront false
      exact ⟨front, ends, [], hs, hwritten, by rw [shown, List.map_nil]⟩

section Containers

variable {value : GoString → Option (Json × GoString)}

theorem readItems_writes (hvalue : Writes shown value) (n : ℕ) :
    Writes shownItems (readItems value n) := by
  intro s items r h
  replace h := readItems_sound h
  induction h with
  | @last s s₁ r v hv hend =>
    obtain ⟨space, ends, hs, hspace, hends⟩ := written_space (s := s) rfl false
    obtain rfl := hends rfl
    obtain ⟨front, ends, pieces, hfront, hwritten, hshown⟩ := hvalue _ _ _ hv
    obtain ⟨bracket, rfl, hbracket⟩ := written_expect rfl hend ends
    refine ⟨space ++ (front ++ bracket), _, _, ?_, hspace.append (hwritten.append hbracket), ?_⟩
    · rw [hs, hfront]
      simp
    · rw [shownItems, shownItems, ← hshown]
      simp
  | @next s s₁ s₂ r v items hv hnext _ ih =>
    obtain ⟨space, ends, hs, hspace, hends⟩ := written_space (s := s) rfl false
    obtain rfl := hends rfl
    obtain ⟨front, ends, pieces, hfront, hwritten, hshown⟩ := hvalue _ _ _ hv
    obtain ⟨comma, rfl, hcomma⟩ := written_expect rfl hnext ends
    obtain ⟨rest, ends', pieces', hrest, hwritten', hshown'⟩ := ih
    refine ⟨space ++ (front ++ (comma ++ rest)), _, _, ?_,
      hspace.append (hwritten.append (hcomma.append hwritten')), ?_⟩
    · rw [hs, hfront, hrest]
      simp
    · rw [shownItems, ← hshown, ← hshown']
      simp

theorem readArray_writes (hvalue : Writes shown value) : Writes shownItems (readArray value) := by
  intro s items r h
  unfold readArray at h
  split at h
  · next hend =>
    obtain ⟨rfl, rfl⟩ := Prod.mk.inj (Option.some.inj h)
    obtain ⟨front, hs, hfront⟩ := written_expect rfl hend false
    exact ⟨front, _, [], hs, hfront, by rw [shownItems, List.map_nil]⟩
  · exact readItems_writes hvalue _ _ _ _ h

/-- A member is the pieces of its name and of its value. -/
theorem readMember_writes (hvalue : Writes shown value) {s k r s₁ s₂ s₃ : GoString} {v : Json}
    (h : ReadMember value s k v r s₁ s₂ s₃) : ∃ front ends pieces, s = front ++ r ∧
      Written false front ends pieces ∧ pieces.map Piece.value = some k :: shown v := by
  obtain ⟨space, ends, hs, hspace, -⟩ := written_space (s := s) rfl false
  obtain ⟨raw, rfl, hraw⟩ := readString_spelled h.key
  obtain ⟨colon, hs₂, hcolon⟩ := written_expect rfl h.colon false
  obtain ⟨space', ends', hs₃, hspace', hends'⟩ := written_space (s := s₃) rfl false
  obtain rfl := hends' rfl
  obtain ⟨front, ends', pieces, hfront, hwritten, hshown⟩ := hvalue _ _ _ h.value
  have hname : Written ends (34 :: (raw ++ [34])) false [.string raw k] := .string hraw .nil
  refine ⟨_, _, _, ?_,
    hspace.append (hname.append (hcolon.append (hspace'.append hwritten))), ?_⟩
  · rw [hs, expect_some h.quote, hs₂, hs₃, hfront]
    simp
  · rw [← hshown]
    simp [Piece.value]

theorem readMembers_writes (hvalue : Writes shown value) (n : ℕ) :
    Writes (fun members => shownMembers members ++ [none]) (readMembers value n) := by
  intro s members r h
  replace h := readMembers_sound h
  induction h with
  | last hmember hend =>
    obtain ⟨front, ends, pieces, rfl, hwritten, hshown⟩ := readMember_writes hvalue hmember
    obtain ⟨brace, rfl, hbrace⟩ := written_close hend ends
    refine ⟨_, _, _, (List.append_assoc ..).symm, hwritten.append hbrace, ?_⟩
    rw [List.map_append, hshown]
    simp [shownMembers, Piece.value]
  | next hmember hnext _ ih =>
    obtain ⟨front, ends, pieces, rfl, hwritten, hshown⟩ := readMember_writes hvalue hmember
    obtain ⟨comma, rfl, hcomma⟩ := written_expect rfl hnext ends
    obtain ⟨rest, ends', pieces', rfl, hwritten', hshown'⟩ := ih
    refine ⟨_, _, _, ?_, hwritten.append (hcomma.append hwritten'), ?_⟩
    · simp
    · rw [List.map_append, hshown]
      dsimp only at hshown'
      simp [shownMembers, ← hshown']

theorem readObject_writes (hvalue : Writes shown value) :
    Writes (fun members => shownMembers members ++ [none]) (readObject value) := by
  intro s members r h
  unfold readObject at h
  split at h
  · next hend =>
    obtain ⟨rfl, rfl⟩ := Prod.mk.inj (Option.some.inj h)
    obtain ⟨front, hs, hfront⟩ := written_close hend false
    exact ⟨front, _, _, hs, hfront, by simp [shownMembers, Piece.value]⟩
  · exact readMembers_writes hvalue _ _ _ _ h

end Containers

theorem parseValue_writes (depth : ℕ) : Writes shown (parseValue depth) := by
  induction depth with
  | zero =>
    intro s v r h
    rw [parseValue] at h
    split at h
    · cases h
    · exact parseScalar_writes s v r h
  | succ depth ih =>
    intro s v r h
    rw [parseValue] at h
    cases hbrace : expect 123 s with
    | some rest =>
      simp only [hbrace] at h
      obtain ⟨⟨members, r'⟩, hobject, heq⟩ := Option.map_eq_some_iff.mp h
      obtain ⟨rfl, rfl⟩ := Prod.mk.inj heq
      obtain ⟨front, ends, pieces, hrest, hwritten, hshown⟩ := readObject_writes ih _ _ _ hobject
      refine ⟨123 :: front, ends, pieces, ?_, .bare rfl (by decide) (by simp) hwritten, ?_⟩
      · rw [expect_some hbrace, hrest, List.cons_append]
      · rw [hshown, shown]
    | none =>
      simp only [hbrace] at h
      cases hbracket : expect 91 s with
      | some rest =>
        simp only [hbracket] at h
        obtain ⟨⟨items, r'⟩, harray, heq⟩ := Option.map_eq_some_iff.mp h
        obtain ⟨rfl, rfl⟩ := Prod.mk.inj heq
        obtain ⟨front, ends, pieces, hrest, hwritten, hshown⟩ := readArray_writes ih _ _ _ harray
        refine ⟨91 :: front, ends, pieces, ?_, .inner rfl hwritten, ?_⟩
        · rw [expect_some hbracket, hrest, List.cons_append]
        · rw [hshown, shown]
      | none =>
        simp only [hbracket] at h
        exact parseScalar_writes s v r h

/-- The text of a value, with white space around it and no limit for its depth. -/
def Decodes (text : GoString) (v : Json) : Prop :=
  ∃ depth rest, parseValue depth (skipSpace text) = some (v, rest) ∧ skipSpace rest = []

theorem decodes_of_parseText {s : GoString} {v : Json} (h : parseText s = some v) :
    Decodes s v := by
  simp only [parseText, parseFirst, Option.bind_eq_bind, Option.bind_eq_some_iff] at h
  obtain ⟨⟨w, r⟩, hvalue, h⟩ := h
  dsimp only at h
  split at h
  · next hend =>
    obtain rfl := Option.some.inj h
    exact ⟨maxNestingDepth, r, hvalue, hend⟩
  · cases h

/-- The text of an object is white space and a brace. -/
theorem Decodes.object {text : GoString} {members : List (GoString × Json)}
    (h : Decodes text (.obj members)) :
    ∃ space body, text = space ++ 123 :: body ∧ ∀ c ∈ space, isSpace c = true := by
  obtain ⟨depth, rest, hvalue, -⟩ := h
  obtain ⟨body, hbody⟩ := parseValue_object hvalue
  refine ⟨text.takeWhile isSpace, body, ?_, fun c hc => List.mem_takeWhile_imp hc⟩
  rw [← hbody, skipSpace, List.takeWhile_append_dropWhile]

/-- The pieces of a text show its value. -/
theorem Decodes.written {text : GoString} {v : Json} (h : Decodes text v) :
    ∃ ends pieces, Written false text ends pieces ∧ pieces.map Piece.value = shown v := by
  obtain ⟨depth, rest, hvalue, hend⟩ := h
  obtain ⟨space, ends, hs, hspace, hends⟩ := written_space (s := text) rfl false
  obtain rfl := hends rfl
  obtain ⟨front, ends, pieces, hfront, hwritten, hshown⟩ := parseValue_writes _ _ _ _ hvalue
  obtain ⟨blank, ends', hr, hblank, -⟩ := written_space hend ends
  have hwhole := hspace.append (hwritten.append hblank)
  rw [List.nil_append, List.append_nil] at hwhole
  refine ⟨ends', pieces, ?_, hshown⟩
  rw [hs, hfront, hr, List.append_nil]
  exact hwhole

/-! ## Texts with a common front -/

section Fronts

variable {closed ends ends' : Bool} {s rest : GoString} {pieces pieces' : List Piece}

/-- A string that is closed further behind goes on with another string. -/
theorem RawString.append_cut {raw raw' t t' : GoString} (h : RawString raw)
    (h' : RawString raw') (heq : raw ++ t = raw' ++ 34 :: t') :
    ∃ more, raw' = raw ++ more ∧ RawString more ∧ t = more ++ 34 :: t' := by
  induction h generalizing raw' with
  | nil => exact ⟨raw', rfl, h', heq⟩
  | byte hquote hslash _ ih =>
    cases h' with
    | nil => exact absurd (List.cons.inj heq).1 hquote
    | byte _ _ h' =>
      obtain ⟨rfl, htail⟩ := List.cons.inj heq
      obtain ⟨more, rfl, hmore, hrest⟩ := ih h' htail
      exact ⟨more, rfl, hmore, hrest⟩
    | escape => exact absurd (List.cons.inj heq).1 hslash
  | escape _ ih =>
    cases h' with
    | nil => exact absurd (List.cons.inj heq).1 (by decide)
    | byte _ hslash => exact absurd (List.cons.inj heq).1.symm hslash
    | escape h' =>
      obtain ⟨rfl, htail⟩ := List.cons.inj (List.cons.inj heq).2
      obtain ⟨more, rfl, hmore, hrest⟩ := ih h' htail
      exact ⟨more, rfl, hmore, hrest⟩

theorem RawString.append_inj {raw raw' t t' : GoString} (h : RawString raw)
    (h' : RawString raw') (heq : raw ++ 34 :: t = raw' ++ 34 :: t') : raw = raw' ∧ t = t' := by
  obtain ⟨more, rfl, hmore, hrest⟩ := h.append_cut h' heq
  cases hmore with
  | nil => exact ⟨(List.append_nil raw).symm, (List.cons.inj hrest).2⟩
  | byte hquote => exact absurd (List.cons.inj hrest).1.symm hquote
  | escape => exact absurd (List.cons.inj hrest).1 (by decide)

theorem isBare_ne {c : UInt8} (h : isBare c = true) : c ≠ 34 := by
  rintro rfl
  exact absurd h (by decide +kernel)

theorem Written.of_bare {c : UInt8} (h : Written closed (c :: s) ends pieces)
    (hc : isBare c = true) (hbrace : c ≠ 125) : Written false s ends pieces := by
  generalize hwhole : c :: s = whole at h
  cases h with
  | nil => cases hwhole
  | bare _ _ _ h =>
    obtain ⟨rfl, rfl⟩ := List.cons.inj hwhole
    exact h
  | close => exact absurd (List.cons.inj hwhole).1 hbrace
  | string => exact absurd (List.cons.inj hwhole).1 (isBare_ne hc)

theorem Written.of_close (h : Written closed (125 :: s) ends pieces) :
    ∃ behind, pieces = .close :: behind ∧ Written true s ends behind := by
  generalize hwhole : 125 :: s = whole at h
  cases h with
  | nil => cases hwhole
  | bare _ hbrace => exact absurd (List.cons.inj hwhole).1.symm hbrace
  | close h =>
    obtain rfl := (List.cons.inj hwhole).2
    exact ⟨_, rfl, h⟩
  | string => exact absurd (List.cons.inj hwhole).1 (by decide)

theorem Written.of_quote (h : Written closed (34 :: s) ends pieces) :
    ∃ raw w behind rest, s = raw ++ 34 :: rest ∧ pieces = .string raw w :: behind ∧
      Spelled raw w ∧ Written false rest ends behind := by
  generalize hwhole : 34 :: s = whole at h
  cases h with
  | nil => cases hwhole
  | bare hc => exact absurd (List.cons.inj hwhole).1.symm (isBare_ne hc)
  | close => exact absurd (List.cons.inj hwhole).1 (by decide)
  | string hraw h => exact ⟨_, _, _, _, (List.cons.inj hwhole).2, rfl, hraw, h⟩

/-- No object stands directly behind the end of another one. -/
theorem Written.not_open (h : Written true s ends pieces) : s.head? ≠ some 123 := by
  generalize hclosed : true = closed at h
  cases h with
  | nil => simp
  | bare _ _ hopen => simpa using hopen hclosed.symm
  | close => simp
  | string => simp

/-- Texts with a common front have as many pieces in it. -/
theorem Written.cut (h : Written closed s ends pieces)
    (h' : Written closed (s ++ rest) ends' pieces') : ∃ front behind,
      pieces' = front ++ behind ∧ front.length = pieces.length ∧ Written ends rest ends' behind := by
  induction h generalizing pieces' with
  | nil => exact ⟨[], pieces', rfl, rfl, h'⟩
  | bare hc hbrace _ _ ih => exact ih (h'.of_bare hc hbrace)
  | close _ ih =>
    obtain ⟨behind, rfl, hbehind⟩ := h'.of_close
    obtain ⟨front, behind, rfl, hlength, hrest⟩ := ih hbehind
    exact ⟨.close :: front, behind, rfl, by simp [hlength], hrest⟩
  | @string _ _ raw w s _ hraw _ ih =>
    obtain ⟨raw', w', behind, s', heq, rfl, hraw', hbehind⟩ := h'.of_quote
    change raw ++ 34 :: s ++ rest = raw' ++ 34 :: s' at heq
    rw [List.append_assoc, List.cons_append] at heq
    obtain ⟨-, rfl⟩ := hraw.rawString.append_inj hraw'.rawString heq
    obtain ⟨front, behind, rfl, hlength, hrest⟩ := ih hbehind
    exact ⟨.string raw' w' :: front, behind, rfl, by simp [hlength], hrest⟩

end Fronts

end VissServer.Go
