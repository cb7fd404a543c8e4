import VissServer.Go.JsonPieces
import VissServer.Go.Searches

/-!
The strings of a JSON text as they are written, names and values alike, and when a word occurs in
a text: outside its strings a text has only blanks, punctuation, numbers and literal names.
-/
namespace VissServer.Go

/-! ## Strings as they are written -/

/-- The scan behind stringTokens, outside of strings or in one of which a part is read. -/
def scanTokens : Option GoString → GoString → List GoString
  | none, [] => []
  | none, c :: s => if c = 34 then scanTokens (some []) s else scanTokens none s
  | some raw, [] => [raw]
  | some raw, [c] => if c = 34 then [raw] else [raw ++ [c]]
  | some raw, c :: d :: s =>
      if c = 34 then raw :: scanTokens none (d :: s)
      else if c = 92 then scanTokens (some (raw ++ [c, d])) s
      else scanTokens (some (raw ++ [c])) (d :: s)

/-- What stands between the quotes of the strings of a text. -/
def stringTokens (text : GoString) : List GoString := scanTokens none text

/-- A text of bare bytes and strings, with what stands between the quotes. -/
inductive Lexed : GoString → List GoString → Prop
  | nil : Lexed [] []
  | bare {c : UInt8} {s : GoString} {tokens : List GoString} :
      isBare c = true → Lexed s tokens → Lexed (c :: s) tokens
  | string {raw s : GoString} {tokens : List GoString} :
      RawString raw → Lexed s tokens → Lexed (34 :: (raw ++ 34 :: s)) (raw :: tokens)

section Lexing

variable {raw raw' s s' : GoString} {tokens tokens' : List GoString}

theorem scanTokens_raw (h : RawString raw) (front s : GoString) :
    scanTokens (some front) (raw ++ 34 :: s) = (front ++ raw) :: scanTokens none s := by
  induction h generalizing front with
  | nil =>
    rw [List.nil_append, List.append_nil]
    cases s with
    | nil => rfl
    | cons d s => exact if_pos rfl
  | @byte c raw hquote hslash _ ih =>
    have hstep : scanTokens (some front) (c :: (raw ++ 34 :: s)) =
        scanTokens (some (front ++ [c])) (raw ++ 34 :: s) := by
      obtain ⟨d, t, ht⟩ := List.exists_cons_of_ne_nil (show raw ++ 34 :: s ≠ [] by simp)
      rw [ht, scanTokens, if_neg hquote, if_neg hslash]
    rw [List.cons_append, hstep, ih, List.append_assoc, List.singleton_append]
  | @escape c raw _ ih =>
    rw [List.cons_append, List.cons_append, scanTokens, if_neg (by decide), if_pos rfl, ih,
      List.append_assoc]
    rfl

/-- The scan finds the strings of a text. -/
theorem Lexed.stringTokens_eq (h : Lexed s tokens) : stringTokens s = tokens := by
  have hquote : isBare 34 = false := rfl
  unfold stringTokens
  induction h with
  | nil => rfl
  | @bare c s tokens hc _ ih =>
    have hne : c ≠ 34 := by
      rintro rfl
      rw [hquote] at hc
      cases hc
    rw [scanTokens, if_neg hne, ih]
  | string hraw _ ih => rw [scanTokens, if_pos rfl, scanTokens_raw hraw, ih, List.nil_append]

end Lexing

/-- The pieces of a text without the ends of its objects. -/
theorem Written.lexed {closed ends : Bool} {s : GoString} {pieces : List Piece}
    (h : Written closed s ends pieces) : Lexed s (pieces.filterMap Piece.raw) := by
  induction h with
  | nil => exact .nil
  | bare hc _ _ _ ih => exact .bare hc ih
  | close _ ih => exact .bare rfl ih
  | string hraw _ ih => exact .string hraw.rawString ih

/-- A JSON text is bare bytes and the strings that the scan finds. -/
theorem lexed_of_parseText {s : GoString} {v : Json} (h : parseText s = some v) :
    Lexed s (stringTokens s) := by
  obtain ⟨ends, pieces, hwritten, -⟩ := (decodes_of_parseText h).written
  rw [hwritten.lexed.stringTokens_eq]
  exact hwritten.lexed

/-! ## Words -/

/-- Some string of the text, a name or a value, has the word in it as it is written. -/
def Mentions (text word : GoString) : Prop :=
  ∃ raw ∈ stringTokens text, contains raw word = true

instance (text word : GoString) : Decidable (Mentions text word) :=
  inferInstanceAs (Decidable (∃ raw ∈ stringTokens text, contains raw word = true))

/-- Some string of the text is the word, or ends with it behind a quote. -/
def MentionsWhole (text word : GoString) : Prop :=
  ∃ raw ∈ stringTokens text, 34 :: word <:+ 34 :: raw

instance (text word : GoString) : Decidable (MentionsWhole text word) :=
  inferInstanceAs (Decidable (∃ raw ∈ stringTokens text, 34 :: word <:+ 34 :: raw))

/-- A word that only strings can have. -/
structure IsWord (word : GoString) : Prop where
  quote : 34 ∉ word
  slash : 92 ∉ word
  bare : ∃ c ∈ word, isBare c = false

instance (word : GoString) : Decidable (IsWord word) :=
  decidable_of_iff (34 ∉ word ∧ 92 ∉ word ∧ ∃ c ∈ word, isBare c = false)
    ⟨fun h => ⟨h.1, h.2.1, h.2.2⟩, fun h => ⟨h.quote, h.slash, h.bare⟩⟩

theorem contains_lexed {word s : GoString} {tokens : List GoString} (hword : IsWord word)
    (h : Lexed s tokens) {gap : GoString} (hgap : ∀ c ∈ gap, isBare c = true) :
    contains (gap ++ s) word = tokens.any fun raw => contains raw word := by
  obtain ⟨c, hc, hnot⟩ := hword.bare
  have hnone : ∀ {gap : GoString}, (∀ d ∈ gap, isBare d = true) → index? word gap = none := by
    intro gap hgap
    apply index?_eq_none_of_notMem hc
    intro hmem
    rw [hgap c hmem] at hnot
    cases hnot
  induction h generalizing gap with
  | nil =>
    rw [List.append_nil, contains, hnone hgap]
    rfl
  | @bare d s tokens hd _ ih =>
    have hcons : gap ++ d :: s = (gap ++ [d]) ++ s := by
      rw [List.append_assoc, List.singleton_append]
    rw [hcons]
    exact ih (List.forall_mem_append.mpr ⟨hgap, List.forall_mem_singleton.mpr hd⟩)
  | @string raw s tokens _ _ ih =>
    have hrest := @ih [] (by simp)
    have hsub := List.ne_nil_of_mem hc
    rw [List.nil_append] at hrest
    rw [contains, index?_separated hword.quote hsub, hnone hgap, Option.none_or,
      index?_separated hword.quote hsub, List.any_cons, ← hrest, contains, contains]
    cases index? word raw <;> cases index? word s <;> rfl

/-- A word is found in a JSON text where one of its strings has it. -/
theorem contains_iff_mentions {word text : GoString} {v : Json} (hword : IsWord word)
    (h : parseText text = some v) : contains text word = true ↔ Mentions text word := by
  have hlexed := @contains_lexed _ _ _ hword (lexed_of_parseText h) [] (by simp)
  rw [List.nil_append] at hlexed
  rw [hlexed, List.any_eq_true]
  rfl

/-! ## Words between quotes -/

theorem contains_iff_part {s sub : GoString} : contains s sub = true ↔ sub <:+: s := by
  unfold contains
  induction s with
  | nil =>
    rw [index?, List.infix_nil]
    split
    · next heq => simp [heq]
    · next hne => simp [hne]
  | cons c s ih =>
    rw [List.infix_cons_iff, index?, ← List.isPrefixOf_iff_prefix]
    split
    · next hfront => simp [hfront]
    · next hfront =>
      rw [Option.isSome_map, ih]
      simp [hfront]

section Quoted

variable {word : GoString}

/-- A word between quotes. -/
def betweenQuotes (word : GoString) : GoString := 34 :: (word ++ [34])

theorem infix_cons_of_ne {c : UInt8} (hc : c ≠ 34) (s : GoString) :
    betweenQuotes word <:+: c :: s ↔ betweenQuotes word <:+: s := by
  rw [List.infix_cons_iff]
  constructor
  · rintro (hfront | hinner)
    · exact absurd (List.cons_prefix_cons.mp hfront).1 hc.symm
    · exact hinner
  · exact .inr

theorem append_quote_prefix_iff {u : GoString} (hword : 34 ∉ word) (hu : 34 ∉ u) (s : GoString) :
    word ++ [34] <+: u ++ 34 :: s ↔ u = word := by
  induction word generalizing u with
  | nil =>
    cases u with
    | nil => simp
    | cons d u =>
      have hne : ¬ 34 = d := List.ne_of_not_mem_cons hu
      simp [hne]
  | cons c word ih =>
    have hc : ¬ 34 = c := List.ne_of_not_mem_cons hword
    cases u with
    | nil => simp [Ne.symm hc]
    | cons d u =>
      rw [List.cons_append, List.cons_append, List.cons_prefix_cons,
        ih (List.not_mem_of_not_mem_cons hword) (List.not_mem_of_not_mem_cons hu),
        List.cons.injEq, eq_comm]

/-- Up to the next quote there is the whole word or nothing of it. -/
theorem infix_upTo_quote {u : GoString} (hword : 34 ∉ word) (hu : 34 ∉ u) (s : GoString) :
    betweenQuotes word <:+: 34 :: (u ++ 34 :: s) ↔
      u = word ∨ betweenQuotes word <:+: 34 :: s := by
  have hskip : betweenQuotes word <:+: u ++ 34 :: s ↔ betweenQuotes word <:+: 34 :: s := by
    induction u with
    | nil => rfl
    | cons d u ih =>
      have hne : d ≠ 34 := Ne.symm (List.ne_of_not_mem_cons hu)
      rw [List.cons_append, infix_cons_of_ne hne, ih (List.not_mem_of_not_mem_cons hu)]
  rw [List.infix_cons_iff, hskip, betweenQuotes, List.cons_prefix_cons,
    append_quote_prefix_iff hword hu]
  simp

theorem quoted_suffix_iff {u raw : GoString} (hword : 34 ∉ word) :
    34 :: word <:+ u ++ 34 :: raw ↔ 34 :: word <:+ 34 :: raw := by
  constructor
  · intro h
    rcases List.suffix_or_suffix_of_suffix h (List.suffix_append u (34 :: raw)) with h | h
    · exact h
    · rcases List.suffix_cons_iff.mp h with heq | hsuffix
      · rw [heq]
      · exact absurd (hsuffix.subset List.mem_cons_self) hword
  · exact fun h => h.trans (List.suffix_append u (34 :: raw))

/-- A string of a text that goes on behind it. -/
theorem infix_string {raw : GoString} (hword : IsWord word) (hraw : RawString raw) {u : GoString}
    (hu : 34 ∉ u) (s : GoString) :
    betweenQuotes word <:+: 34 :: (u ++ (raw ++ 34 :: s)) ↔
      34 :: word <:+ 34 :: (u ++ raw) ∨ betweenQuotes word <:+: 34 :: s := by
  induction hraw generalizing u with
  | nil =>
    have hsuffix : 34 :: word <:+ 34 :: (u ++ []) ↔ u = word := by
      rw [List.append_nil]
      constructor
      · intro h
        rcases List.suffix_cons_iff.mp h with heq | hmem
        · exact (List.cons.inj heq).2.symm
        · exact absurd (hmem.subset List.mem_cons_self) hu
      · rintro rfl
        exact List.suffix_rfl
    rw [hsuffix, List.nil_append, infix_upTo_quote hword.quote hu]
  | @byte c raw hquote _ _ ih =>
    have hcons : ∀ t : GoString, u ++ (c :: raw ++ t) = (u ++ [c]) ++ (raw ++ t) := by simp
    have hu' : 34 ∉ u ++ [c] := by simp [hu, Ne.symm hquote]
    have hlast := hcons []
    rw [List.append_nil, List.append_nil] at hlast
    rw [hcons, ih hu', hlast]
  | @escape c raw _ ih =>
    have hcons : ∀ t : GoString, u ++ (92 :: c :: raw ++ t) = (u ++ [92, c]) ++ (raw ++ t) := by
      simp
    have hlast := hcons []
    rw [List.append_nil, List.append_nil] at hlast
    by_cases hquote : c = 34
    · -- The word starts behind the escaped quote, if it does in this string.
      subst hquote
      have hu' : 34 ∉ u ++ [92] := by simp [hu]
      have hne : u ++ [92] ≠ word := by
        rintro rfl
        exact hword.slash (by simp)
      have hsplit : ∀ t : GoString, u ++ [92, 34] ++ t = (u ++ [92]) ++ 34 :: t := by simp
      have hih := @ih [] (by simp)
      rw [List.nil_append, List.nil_append] at hih
      rw [hcons, hsplit, infix_upTo_quote hword.quote hu', hih, hlast, hsplit, ← List.cons_append,
        quoted_suffix_iff hword.quote]
      simp [hne]
    · have hu' : 34 ∉ u ++ [92, c] := by simp [hu, Ne.symm hquote]
      rw [hcons, ih hu', hlast]

/-- Between the strings of a text there is no word. -/
theorem not_prefix_lexed {s u : GoString} {tokens : List GoString} (h : Lexed s tokens)
    (hu : 34 ∉ u) (hbare : ∃ c ∈ u, isBare c = false) : ¬ u ++ [34] <+: s := by
  induction h generalizing u with
  | nil => simp
  | @bare c s tokens hc _ ih =>
    obtain ⟨d, hd, hnot⟩ := hbare
    cases u with
    | nil => cases hd
    | cons e u =>
      rw [List.cons_append, List.cons_prefix_cons]
      rintro ⟨rfl, hprefix⟩
      rcases List.mem_cons.mp hd with rfl | hd
      · rw [hc] at hnot
        cases hnot
      · exact ih (List.not_mem_of_not_mem_cons hu) ⟨d, hd, hnot⟩ hprefix
  | string _ _ _ =>
    obtain ⟨d, hd, -⟩ := hbare
    cases u with
    | nil => cases hd
    | cons e u =>
      rw [List.cons_append, List.cons_prefix_cons]
      rintro ⟨rfl, -⟩
      exact hu List.mem_cons_self

theorem infix_lexed {s : GoString} {tokens : List GoString} (hword : IsWord word)
    (h : Lexed s tokens) :
    betweenQuotes word <:+: s ↔ ∃ raw ∈ tokens, 34 :: word <:+ 34 :: raw := by
  have hquote : isBare 34 = false := rfl
  induction h with
  | nil => simp [betweenQuotes]
  | @bare c s tokens hc _ ih =>
    have hne : c ≠ 34 := by
      rintro rfl
      rw [hquote] at hc
      cases hc
    exact (infix_cons_of_ne hne s).trans ih
  | @string raw s tokens hraw hs ih =>
    have hstring := infix_string hword hraw (u := []) (by simp) s
    have hbehind := not_prefix_lexed hs hword.quote hword.bare
    rw [List.nil_append, List.nil_append] at hstring
    have hafter : betweenQuotes word <:+: 34 :: s ↔ betweenQuotes word <:+: s := by
      rw [List.infix_cons_iff, betweenQuotes, List.cons_prefix_cons]
      simp [hbehind]
    rw [hstring, hafter]
    simp only [List.mem_cons, exists_eq_or_imp]
    exact or_congr_right ih

/-- A word between quotes is found in a JSON text where a string is the word or ends with it
behind an escaped quote. -/
theorem contains_betweenQuotes_iff {text : GoString} {v : Json} (hword : IsWord word)
    (h : parseText text = some v) :
    contains text (betweenQuotes word) = true ↔ MentionsWhole text word := by
  rw [contains_iff_part, infix_lexed hword (lexed_of_parseText h)]
  rfl

end Quoted

end VissServer.Go
