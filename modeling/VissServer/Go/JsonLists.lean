import VissServer.Go.JsonKept
import VissServer.Go.JsonPieces
import VissServer.Library.Traversals

/-!
Arrays of strings that are put between quotes as they are: the commas of the text tell how many
items are read, and with as many items as strings each item is read from its own string.
-/
namespace VissServer.Go

section Commas

variable {α : Type} {shows : α → List (Option GoString)} {value : GoString → Option (α × GoString)}
  {n : ℕ} {s r : GoString} {items : List α}

theorem commas_of_suffix {t : GoString} (h : s <:+ t) : s.count 44 ≤ t.count 44 :=
  h.sublist.count_le 44

/-- The commas in front of an item, and in the item, are not behind it. -/
theorem commas_value (hvalue : Writes shows value) {s₁ : GoString} {v : α}
    (h : value (skipSpace s) = some (v, s₁)) : (skipSpace s₁).count 44 ≤ s.count 44 := by
  obtain ⟨front, -, -, hfront, -, -⟩ := hvalue _ _ _ h
  have hspace := commas_of_suffix (skipSpace_suffix s)
  have hfirst : s₁.count 44 ≤ (skipSpace s).count 44 := commas_of_suffix ⟨front, hfront.symm⟩
  have hnext := commas_of_suffix (skipSpace_suffix s₁)
  omega

/-- Each item but the last one is read with a comma behind it. -/
theorem readItems_commas (hvalue : Writes shows value) (h : readItems value n s = some (items, r)) :
    items.length + r.count 44 ≤ s.count 44 + 1 := by
  replace h := readItems_sound h
  induction h with
  | last hv hend =>
    have hfirst := commas_value hvalue hv
    have hbracket := commas_of_suffix (expect_suffix hend)
    rw [List.length_singleton]
    omega
  | next hv hcomma _ ih =>
    have hfirst := commas_value hvalue hv
    rw [expect_some hcomma, List.count_cons_self] at hfirst
    rw [List.length_cons]
    omega

end Commas

section Strings

variable {gap s tail rest w : GoString} {values : List GoString} {items : List Json} {r : GoString}
  {n depth : ℕ}

/-- The text of strings, up to the end of their array. -/
theorem rawItems_strings (w : GoString) (values : List GoString) :
    rawItems gap ((w :: values).map .str) ++ [93] =
      34 :: (w ++ 34 :: (if values = [] then [93]
        else 44 :: (gap ++ (rawItems gap (values.map .str) ++ [93])))) := by
  by_cases hvalues : values = []
  · subst hvalues
    simp [rawItems, rawText]
  · rw [List.map_cons, rawItems_cons _ (by simpa using hvalues), if_neg hvalues, rawText]
    simp

theorem commas_rawItems (hgap : 44 ∉ gap) (hvalues : ∀ w ∈ values, 44 ∉ w) :
    (rawItems gap (values.map .str) ++ [93]).count 44 = values.length - 1 := by
  induction values with
  | nil => rfl
  | cons w values ih =>
    obtain ⟨hw, hvalues⟩ := List.forall_mem_cons.mp hvalues
    have hquote : ∀ t : GoString, (34 :: t).count 44 = t.count 44 := fun t =>
      List.count_cons_of_ne (by decide)
    rw [rawItems_strings, hquote, List.count_append, List.count_eq_zero_of_not_mem hw, hquote,
      List.length_cons, Nat.add_sub_cancel, Nat.zero_add]
    split
    · next hnil =>
      rw [hnil]
      rfl
    · next hne =>
      have hpos := List.length_pos_of_ne_nil hne
      rw [List.count_cons_self, List.count_append, List.count_eq_zero_of_not_mem hgap, ih hvalues]
      omega

/-- The first byte behind white space is in the front, if it is none that begins the rest. -/
theorem mem_front {space front : GoString} {c d : UInt8} (hspace : ∀ x ∈ space, isSpace x = true)
    (hd : isSpace d = false) (hne : c ≠ d) (h : front ++ d :: tail = space ++ c :: rest) :
    c ∈ front := by
  induction front generalizing space with
  | nil =>
    cases space with
    | nil => exact absurd (List.cons.inj h).1.symm hne
    | cons x space =>
      obtain ⟨rfl, -⟩ := List.cons.inj h
      rw [hspace d List.mem_cons_self] at hd
      cases hd
  | cons x front ih =>
    cases space with
    | nil =>
      obtain ⟨rfl, -⟩ := List.cons.inj h
      exact List.mem_cons_self
    | cons y space =>
      obtain ⟨rfl, hrest⟩ := List.cons.inj h
      exact List.mem_cons_of_mem x (ih (List.forall_mem_cons.mp hspace).2 hrest)

theorem skipSpace_cut {c : UInt8} (h : expect c (skipSpace s) = some rest) :
    ∃ space, s = space ++ c :: rest ∧ ∀ x ∈ space, isSpace x = true := by
  refine ⟨s.takeWhile isSpace, ?_, fun x hx => List.mem_takeWhile_imp hx⟩
  rw [← expect_some h, skipSpace, List.takeWhile_append_dropWhile]

/-- Two ways to cut a text at a quote. -/
theorem quote_cut {raw : GoString} (h : w ++ 34 :: tail = raw ++ 34 :: rest) :
    raw = w ∧ rest = tail ∨ (∃ a, w = raw ++ 34 :: a ∧ rest = a ++ 34 :: tail) ∨
      ∃ a, raw = w ++ 34 :: a ∧ tail = a ++ 34 :: rest := by
  rcases List.append_eq_append_iff.mp h with ⟨a, rfl, ha⟩ | ⟨a, rfl, ha⟩
  · cases a with
    | nil => exact .inl ⟨List.append_nil w, (List.cons.inj ha).2.symm⟩
    | cons c a =>
      obtain ⟨rfl, rfl⟩ := List.cons.inj ha
      exact .inr (.inr ⟨a, rfl, rfl⟩)
  · cases a with
    | nil => exact .inl ⟨(List.append_nil raw).symm, (List.cons.inj ha).2⟩
    | cons c a =>
      obtain ⟨rfl, rfl⟩ := List.cons.inj ha
      exact .inr (.inl ⟨a, rfl, rfl⟩)

/-- A string in front of a comma, where no comma is read as a part of it. -/
theorem string_before_comma {raw r₁ : GoString} (hw : 44 ∉ w) (hraw : 44 ∉ raw)
    (h : w ++ 34 :: 44 :: tail = raw ++ 34 :: r₁) (hnext : expect 44 (skipSpace r₁) = some rest) :
    raw = w ∧ rest = tail := by
  rcases quote_cut h with ⟨rfl, rfl⟩ | ⟨a, rfl, rfl⟩ | ⟨a, rfl, ha⟩
  · rw [skipSpace_of_head (by decide), expect_self] at hnext
    exact ⟨rfl, (Option.some.inj hnext).symm⟩
  · obtain ⟨space, hspace, hblank⟩ := skipSpace_cut hnext
    have hmem := mem_front hblank (by decide) (by decide) hspace
    exact absurd (List.mem_append_right raw (List.mem_cons_of_mem 34 hmem)) hw
  · cases a with
    | nil => cases (List.cons.inj ha).1
    | cons c a =>
      obtain ⟨rfl, -⟩ := List.cons.inj ha
      exact absurd (List.mem_append_right w (List.mem_cons_of_mem 34 List.mem_cons_self)) hraw

/-- The last string, with nothing but white space behind the end of its array. -/
theorem string_at_end {raw r₁ : GoString} (h : w ++ 34 :: [93] = raw ++ 34 :: r₁)
    (hnext : expect 93 (skipSpace r₁) = some rest) (hend : skipSpace rest = []) : raw = w := by
  rcases quote_cut h with ⟨rfl, -⟩ | ⟨a, -, rfl⟩ | ⟨a, -, ha⟩
  · rfl
  · obtain ⟨space, hspace, hblank⟩ := skipSpace_cut hnext
    have hrest : ∀ x ∈ rest, isSpace x = true := List.dropWhile_eq_nil_iff.mp hend
    have hmem : 34 ∈ space ++ 93 :: rest := by
      rw [← hspace]
      exact List.mem_append_right a List.mem_cons_self
    rcases List.mem_append.mp hmem with hmem | hmem
    · exact absurd (hblank 34 hmem) (by decide)
    · rcases List.mem_cons.mp hmem with heq | hmem
      · exact absurd heq (by decide)
      · exact absurd (hrest 34 hmem) (by decide)
  · have hmem : (34 : UInt8) ∈ [93] := by
      rw [ha]
      exact List.mem_append_right a List.mem_cons_self
    exact absurd hmem (by decide)

/-- With as many items as strings no string is read together with the one behind it, and none is
cut. -/
theorem items_spelled (hgap : ∀ c ∈ gap, isSpace c = true) (hvalues : ∀ w ∈ values, 44 ∉ w)
    (h : readItems (parseValue depth) n (rawItems gap (values.map .str) ++ [93]) = some (items, r))
    (hend : skipSpace r = []) (hlength : items.length = values.length) :
    ∃ strings, items = strings.map .str ∧ List.Forall₂ Spelled values strings := by
  have hcomma : 44 ∉ gap := fun hmem => absurd (hgap 44 hmem) (by decide)
  have hquoteSpace : isSpace 34 = false := rfl
  induction values generalizing n items with
  | nil =>
    obtain rfl := List.length_eq_zero_iff.mp hlength
    exact ⟨[], rfl, .nil⟩
  | cons w values ih =>
    obtain ⟨hw, hothers⟩ := List.forall_mem_cons.mp hvalues
    cases n with
    | zero => simp [readItems] at h
    | succ n =>
    have hmore := commas_rawItems hcomma hothers
    rw [rawItems_strings, readItems_value, skipSpace_of_head hquoteSpace, parseValue_quoted] at h
    simp only [Option.bind_eq_some_iff, Option.map_eq_some_iff] at h
    obtain ⟨-, ⟨⟨v, r₁⟩, hstring, rfl⟩, h⟩ := h
    obtain ⟨raw, hraw, hspelled⟩ := readString_spelled hstring
    dsimp only at h
    cases hnext : expect 44 (skipSpace r₁) with
    | some rest =>
      rw [hnext] at h
      obtain ⟨⟨items', r'⟩, hitems, heq⟩ := Option.map_eq_some_iff.mp h
      obtain ⟨rfl, rfl⟩ := Prod.mk.inj heq
      have hne : values ≠ [] := by
        rintro rfl
        exact readItems_ne_nil hitems (List.length_eq_zero_iff.mp (by simpa using hlength))
      rw [if_neg hne] at hraw
      have hrest : rest.count 44 + 1 ≤ r₁.count 44 := by
        have hle := commas_of_suffix (skipSpace_suffix r₁)
        rwa [expect_some hnext, List.count_cons_self] at hle
      have hcount := congrArg (List.count 44) hraw
      have hquote : ∀ t : GoString, (34 :: t).count 44 = t.count 44 := fun t =>
        List.count_cons_of_ne (by decide)
      have hread := readItems_commas (parseValue_writes depth) hitems
      have hpos := List.length_pos_of_ne_nil hne
      simp only [List.count_append, hquote, List.count_cons_self,
        List.count_eq_zero_of_not_mem hw, List.count_eq_zero_of_not_mem hcomma] at hcount
      rw [List.count_append] at hmore
      rw [List.length_cons, List.length_cons] at hlength
      dsimp only at hread hlength
      have hnone : raw.count 44 = 0 := by omega
      obtain ⟨rfl, rfl⟩ := string_before_comma hw (List.count_eq_zero.mp hnone) hraw hnext
      rw [readItems_gap hgap] at hitems
      obtain ⟨strings, rfl, hstrings⟩ := ih hothers hitems (by omega)
      exact ⟨v :: strings, rfl, .cons hspelled hstrings⟩
    | none =>
      rw [hnext] at h
      obtain ⟨r', hbracket, heq⟩ := Option.map_eq_some_iff.mp h
      obtain ⟨rfl, rfl⟩ := Prod.mk.inj heq
      obtain rfl : values = [] := List.length_eq_zero_iff.mp (by simpa using hlength.symm)
      rw [if_pos rfl] at hraw
      obtain rfl := string_at_end hraw hbracket hend
      exact ⟨[v], rfl, .cons hspelled .nil⟩

/-- What is read from the text of an array of strings. -/
theorem parseText_strings {v : Json} (hne : values ≠ [])
    (h : parseText (rawText gap (.arr (values.map .str))) = some v) :
    ∃ items r n, v = .arr items ∧ skipSpace r = [] ∧
      readItems (parseValue (maxNestingDepth - 1)) n (rawItems gap (values.map .str) ++ [93]) =
        some (items, r) := by
  have htextual : ∀ j ∈ values.map Json.str, Textual (maxNestingDepth - 1) j := by
    simp [Textual, maxNestingDepth]
  have hdepth : maxNestingDepth = (maxNestingDepth - 1) + 1 := rfl
  rw [parseText_eq (show Textual maxNestingDepth (.arr (values.map .str)) from htextual), rawText,
    hdepth, parseValue_bracket, readArray, rawItems_open (by simpa using hne) htextual] at h
  simp only [Option.bind_eq_some_iff, Option.map_eq_some_iff] at h
  obtain ⟨-, ⟨⟨items, r⟩, hread, rfl⟩, h⟩ := h
  dsimp only at h
  split at h
  · next hend => exact ⟨items, r, _, (Option.some.inj h).symm, hend, hread⟩
  · cases h

/-- Without a comma in them, no more strings are decoded than are in the text, and when it is as
many, each one is decoded from its own. -/
theorem unmarshalStrings_spelled (hgap : ∀ c ∈ gap, isSpace c = true) (hne : values ≠ [])
    (hvalues : ∀ w ∈ values, 44 ∉ w) {strings : List GoString}
    (h : unmarshalStrings (rawText gap (.arr (values.map .str))) = some strings) :
    strings.length ≤ values.length ∧
      (strings.length = values.length → List.Forall₂ Spelled values strings) := by
  have hcomma : 44 ∉ gap := fun hmem => absurd (hgap 44 hmem) (by decide)
  have hpos := List.length_pos_of_ne_nil hne
  unfold unmarshalStrings at h
  cases hparse : parseText (rawText gap (.arr (values.map .str))) with
  | none =>
    rw [hparse] at h
    cases h
  | some v =>
    obtain ⟨items, r, n, rfl, hend, hread⟩ := parseText_strings hne hparse
    rw [hparse] at h
    dsimp only at h
    have hstrings := Traversals.mapM_eq_some_iff.mp h
    have hlength := hstrings.length_eq
    have hcommas := readItems_commas (parseValue_writes _) hread
    rw [commas_rawItems hcomma hvalues] at hcommas
    refine ⟨by omega, fun heq => ?_⟩
    obtain ⟨strings', rfl, hspelled⟩ :=
      items_spelled hgap hvalues hread hend (by omega)
    rw [List.forall₂_map_left_iff] at hstrings
    have heqs : List.Forall₂ Eq strings' strings :=
      hstrings.imp fun t t' (h : some t = some t') => Option.some.inj h
    rw [List.forall₂_eq_eq_eq] at heqs
    exact heqs ▸ hspelled

end Strings

end VissServer.Go
