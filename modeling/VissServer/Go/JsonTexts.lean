import VissServer.Go.JsonMarks

/-!
JSON texts of values whose strings are put between quotes without an escape, with white
space behind the commas or none. Such a text is read back as the value it was made of where
all strings are literals.
-/
namespace VissServer.Go

section Printing

variable (gap : GoString)

mutual

def rawText : Json → GoString
  | .str s => 34 :: (s ++ [34])
  | .arr items => 91 :: (rawItems items ++ [93])
  | .obj members => 123 :: (rawMembers members ++ [125])
  | .num literal => literal
  | _ => []

def rawItems : List Json → GoString
  | [] => []
  | [j] => rawText j
  | j :: items => rawText j ++ 44 :: (gap ++ rawItems items)

def rawMembers : List (GoString × Json) → GoString
  | [] => []
  | [(k, j)] => 34 :: (k ++ 34 :: 58 :: rawText j)
  | (k, j) :: members => 34 :: (k ++ 34 :: 58 :: (rawText j ++ 44 :: (gap ++ rawMembers members)))

end

end Printing

/-- A value of strings, arrays and objects that nests at most depth deep, with different
literals as member names. A member that is null stands for one whose text is missing. -/
def Textual : ℕ → Json → Prop
  | _, .str _ => True
  | depth + 1, .arr items => ∀ j ∈ items, Textual depth j
  | depth + 1, .obj members => (members.map Prod.fst).Nodup ∧
      ∀ p ∈ members, IsLiteral p.1 ∧ (p.2 = .null ∨ Textual depth p.2)
  | _, _ => False

/-- All strings of the value are literals, and no text is missing. -/
def Literal : ℕ → Json → Prop
  | _, .str s => IsLiteral s
  | depth + 1, .arr items => ∀ j ∈ items, Literal depth j
  | depth + 1, .obj members => ∀ p ∈ members, Literal depth p.2
  | _, _ => False

theorem not_literal_null (depth : ℕ) : ¬ Literal depth .null := by
  cases depth <;> exact id

/-- The bound on the nesting may be raised, which says nothing new about the strings. -/
theorem Textual.mono {depth depth' : ℕ} {v : Json} (h : Textual depth v) (hle : depth ≤ depth') :
    Textual depth' v ∧ (Literal depth' v ↔ Literal depth v) := by
  induction depth generalizing depth' v with
  | zero =>
    cases v with
    | str s => cases depth' <;> exact ⟨trivial, Iff.rfl⟩
    | _ => exact absurd h id
  | succ depth ih =>
    obtain ⟨depth', rfl⟩ := Nat.exists_eq_succ_of_ne_zero (show depth' ≠ 0 by omega)
    have hle' : depth ≤ depth' := by omega
    cases v with
    | str s => exact ⟨trivial, Iff.rfl⟩
    | arr items =>
      refine ⟨fun j hj => (ih (h j hj) hle').1, ?_⟩
      exact forall₂_congr fun j hj => (ih (h j hj) hle').2
    | obj members =>
      refine ⟨⟨h.1, fun p hp => ⟨(h.2 p hp).1, (h.2 p hp).2.imp_right fun h => (ih h hle').1⟩⟩, ?_⟩
      refine forall₂_congr fun p hp => ?_
      rcases (h.2 p hp).2 with hp | hp
      · rw [hp]
        exact iff_of_false (not_literal_null depth') (not_literal_null depth)
      · exact (ih hp hle').2
    | _ => exact absurd h id

section Reading

variable {gap : GoString} {depth n : ℕ} {k rest r : GoString} {v : Json}
  {s : GoString} {items : List Json} {members : List (GoString × Json)}
  {value : GoString → Option (Json × GoString)}

theorem rawItems_cons (j : Json) (hne : items ≠ []) :
    rawItems gap (j :: items) = rawText gap j ++ 44 :: (gap ++ rawItems gap items) := by
  cases items with
  | nil => exact absurd rfl hne
  | cons _ _ => rfl

/-- A text in which each item has a comma behind it. -/
theorem rawItems_trailing (gap : GoString) (hne : items ≠ []) :
    (items.flatMap fun j => rawText gap j ++ 44 :: gap) = rawItems gap items ++ 44 :: gap := by
  induction items with
  | nil => exact absurd rfl hne
  | cons j items ih =>
    rw [List.flatMap_cons]
    by_cases hlast : items = []
    · subst hlast
      rw [List.flatMap_nil, List.append_nil, rawItems]
    · rw [ih hlast, rawItems_cons j hlast]
      simp only [List.append_assoc, List.cons_append]

theorem rawMembers_cons (k : GoString) (v : Json) (hne : members ≠ []) :
    rawMembers gap ((k, v) :: members) =
      34 :: (k ++ 34 :: 58 :: (rawText gap v ++ 44 :: (gap ++ rawMembers gap members))) := by
  cases members with
  | nil => exact absurd rfl hne
  | cons _ _ => rfl

/-- The first byte of the text of a value is no white space and ends no array. -/
theorem rawText_head (gap : GoString) (h : Textual depth v) :
    ∃ c t, rawText gap v = c :: t ∧ isSpace c = false ∧ c ≠ 93 := by
  cases v with
  | str s => exact ⟨34, _, rfl, rfl, by decide⟩
  | arr items => exact ⟨91, _, rfl, rfl, by decide⟩
  | obj members => exact ⟨123, _, rfl, rfl, by decide⟩
  | null => cases depth <;> exact absurd h id
  | bool b => cases depth <;> exact absurd h id
  | num literal => cases depth <;> exact absurd h id

theorem skipSpace_rawText (h : Textual depth v) (rest : GoString) :
    skipSpace (rawText gap v ++ rest) = rawText gap v ++ rest := by
  obtain ⟨c, t, htext, hspace, -⟩ := rawText_head gap h
  rw [htext]
  exact skipSpace_of_head hspace _

/-- The step of readItems over an item. -/
theorem readItems_value (s : GoString) :
    readItems value (n + 1) s =
      (value (skipSpace s)).bind fun r =>
        match expect 44 (skipSpace r.2) with
        | some rest => (readItems value n rest).map fun p => (r.1 :: p.1, p.2)
        | none => (expect 93 (skipSpace r.2)).map fun rest => ([r.1], rest) := by
  simp only [readItems, Option.bind_eq_bind]
  cases value (skipSpace s) with
  | none => rfl
  | some r =>
    simp only [Option.bind_some]
    cases expect 44 (skipSpace r.2) with
    | some rest => exact Option.map_eq_bind.symm
    | none => exact Option.map_eq_bind.symm

theorem isSpace_gap : ∀ c ∈ [32], isSpace c = true := List.forall_mem_singleton.mpr rfl

theorem readMembers_gap (hgap : ∀ c ∈ gap, isSpace c = true) (s : GoString) :
    readMembers value n (gap ++ s) = readMembers value n s := by
  cases n with
  | zero => rfl
  | succ n => rw [readMembers, readMembers, skipSpace_append hgap]

theorem readItems_gap (hgap : ∀ c ∈ gap, isSpace c = true) (s : GoString) :
    readItems value n (gap ++ s) = readItems value n s := by
  cases n with
  | zero => rfl
  | succ n => rw [readItems, readItems, skipSpace_append hgap]

theorem parseValue_bracket (depth : ℕ) (body : GoString) :
    parseValue (depth + 1) (91 :: body) =
      (readArray (parseValue depth) body).map fun p => (.arr p.1, p.2) := by
  simp [parseValue, expect_of_ne (show (91 : UInt8) ≠ 123 by decide)]

/-! ## Literals are read back -/

/-- The reader of values gives back a value that stands in front of a text. -/
def ReadsRaw (gap : GoString) (depth : ℕ) (value : GoString → Option (Json × GoString))
    (v : Json) : Prop :=
  Textual depth v ∧ ∀ rest, value (rawText gap v ++ rest) = some (v, rest)

theorem readMembers_raw (hgap : ∀ c ∈ gap, isSpace c = true) (hne : members ≠ [])
    (h : ∀ p ∈ members, IsLiteral p.1 ∧ ReadsRaw gap depth value p.2)
    (hn : members.length ≤ n) (rest : GoString) :
    readMembers value n (rawMembers gap members ++ 125 :: rest) = some (members, rest) := by
  induction members generalizing n with
  | nil => exact absurd rfl hne
  | cons p members ih =>
    obtain ⟨k, v⟩ := p
    obtain ⟨⟨hk, htextual, hv⟩, hmembers⟩ := List.forall_mem_cons.mp h
    rw [List.length_cons] at hn
    obtain ⟨n, rfl⟩ := Nat.exists_eq_succ_of_ne_zero (show n ≠ 0 by omega)
    by_cases hlast : members = []
    · subst hlast
      have htext : rawMembers gap [(k, v)] ++ 125 :: rest =
          34 :: (k ++ 34 :: 58 :: (rawText gap v ++ 125 :: rest)) := by simp [rawMembers]
      rw [htext, readMembers_named hk, skipSpace_rawText htextual, hv, Option.bind_some,
        skipSpace_of_head (show isSpace 125 = false from rfl),
        expect_of_ne (show (125 : UInt8) ≠ 44 by decide), expect_self]
      rfl
    · have htext : rawMembers gap ((k, v) :: members) ++ 125 :: rest =
          34 :: (k ++ 34 :: 58 :: (rawText gap v ++
            44 :: (gap ++ (rawMembers gap members ++ 125 :: rest)))) := by
        simp [rawMembers_cons k v hlast]
      rw [htext, readMembers_named hk, skipSpace_rawText htextual, hv, Option.bind_some,
        skipSpace_of_head (show isSpace 44 = false from rfl), expect_self]
      simp only [readMembers_gap hgap, ih hlast hmembers (show members.length ≤ n by omega),
        Option.map_some]

theorem readItems_raw (hgap : ∀ c ∈ gap, isSpace c = true) (hne : items ≠ [])
    (h : ∀ j ∈ items, ReadsRaw gap depth value j) (hn : items.length ≤ n) (rest : GoString) :
    readItems value n (rawItems gap items ++ 93 :: rest) = some (items, rest) := by
  induction items generalizing n with
  | nil => exact absurd rfl hne
  | cons j items ih =>
    obtain ⟨⟨htextual, hj⟩, hitems⟩ := List.forall_mem_cons.mp h
    rw [List.length_cons] at hn
    obtain ⟨n, rfl⟩ := Nat.exists_eq_succ_of_ne_zero (show n ≠ 0 by omega)
    by_cases hlast : items = []
    · subst hlast
      rw [rawItems, readItems_value, skipSpace_rawText htextual, hj, Option.bind_some,
        skipSpace_of_head (show isSpace 93 = false from rfl),
        expect_of_ne (show (93 : UInt8) ≠ 44 by decide), expect_self]
      rfl
    · have htext : rawItems gap (j :: items) ++ 93 :: rest =
          rawText gap j ++ 44 :: (gap ++ (rawItems gap items ++ 93 :: rest)) := by
        simp [rawItems_cons j hlast]
      rw [htext, readItems_value, skipSpace_rawText htextual, hj, Option.bind_some,
        skipSpace_of_head (show isSpace 44 = false from rfl), expect_self]
      simp only [readItems_gap hgap, ih hlast hitems (show items.length ≤ n by omega),
        Option.map_some]

theorem length_rawMembers (gap : GoString) (members : List (GoString × Json)) :
    members.length ≤ (rawMembers gap members).length := by
  induction members with
  | nil => exact Nat.zero_le _
  | cons p members ih =>
    obtain ⟨k, v⟩ := p
    by_cases hlast : members = []
    · subst hlast
      simp only [rawMembers, List.length_cons, List.length_append, List.length_nil]
      omega
    · rw [rawMembers_cons k v hlast]
      simp only [List.length_cons, List.length_append]
      omega

theorem length_rawItems (gap : GoString) (h : ∀ j ∈ items, Textual depth j) :
    items.length ≤ (rawItems gap items).length := by
  induction items with
  | nil => exact Nat.zero_le _
  | cons j items ih =>
    obtain ⟨hj, hitems⟩ := List.forall_mem_cons.mp h
    obtain ⟨c, t, htext, -⟩ := rawText_head gap hj
    have hlength := ih hitems
    by_cases hlast : items = []
    · subst hlast
      simp only [rawItems, htext, List.length_cons, List.length_nil]
      omega
    · rw [rawItems_cons j hlast, htext]
      simp only [List.length_cons, List.length_append]
      omega

/-- The text of a nonempty array does not begin like the end of an empty one. -/
theorem rawItems_open (hne : items ≠ []) (h : ∀ j ∈ items, Textual depth j) (s : GoString) :
    expect 93 (skipSpace (rawItems gap items ++ s)) = none := by
  cases items with
  | nil => exact absurd rfl hne
  | cons j items =>
    obtain ⟨c, t, htext, hspace, hend⟩ := rawText_head gap (h j (List.mem_cons_self ..))
    by_cases hlast : items = []
    · subst hlast
      rw [rawItems, htext, List.cons_append, skipSpace_of_head hspace, expect_of_ne hend]
    · rw [rawItems_cons j hlast, htext, List.cons_append, List.cons_append,
        skipSpace_of_head hspace, expect_of_ne hend]

theorem rawMembers_open (hne : members ≠ []) (s : GoString) :
    expect 125 (skipSpace (rawMembers gap members ++ s)) = none := by
  obtain ⟨t, htext⟩ : ∃ t, rawMembers gap members = 34 :: t := by
    cases members with
    | nil => exact absurd rfl hne
    | cons p members =>
      obtain ⟨k, v⟩ := p
      cases members with
      | nil => exact ⟨_, rfl⟩
      | cons _ _ => exact ⟨_, rfl⟩
  rw [htext, List.cons_append, skipSpace_of_head (show isSpace 34 = false from rfl),
    expect_of_ne (show (34 : UInt8) ≠ 125 by decide)]

theorem rawText_arr (items : List Json) (rest : GoString) :
    rawText gap (.arr items) ++ rest = 91 :: (rawItems gap items ++ 93 :: rest) := by
  rw [rawText, List.cons_append, List.append_assoc, List.singleton_append]

theorem rawText_obj (members : List (GoString × Json)) (rest : GoString) :
    rawText gap (.obj members) ++ rest = 123 :: (rawMembers gap members ++ 125 :: rest) := by
  rw [rawText, List.cons_append, List.append_assoc, List.singleton_append]

/-- Reading the text of a string value is reading its body. -/
theorem parseValue_rawString (gap : GoString) (depth : ℕ) (s rest : GoString) :
    ∃ n, s.length < n ∧ parseValue depth (rawText gap (.str s) ++ rest) =
      (readString n (s ++ 34 :: rest)).map fun p => (.str p.1, p.2) := by
  refine ⟨(s ++ 34 :: rest).length, ?_, ?_⟩
  · rw [List.length_append, List.length_cons]
    omega
  · rw [rawText, List.cons_append, List.append_assoc, List.singleton_append, parseValue_quoted]

theorem readArray_empty (rest : GoString) :
    readArray value (rawItems gap [] ++ 93 :: rest) = some ([], rest) := by
  rw [rawItems, List.nil_append, readArray, skipSpace_of_head (show isSpace 93 = false from rfl),
    expect_self]

theorem readObject_empty (rest : GoString) :
    readObject value (rawMembers gap [] ++ 125 :: rest) = some ([], rest) := by
  rw [rawMembers, List.nil_append, readObject,
    skipSpace_of_head (show isSpace 125 = false from rfl), expect_self]

theorem parseValue_literal (hs : IsLiteral s) (depth : ℕ) (rest : GoString) :
    parseValue depth (rawText gap (.str s) ++ rest) = some (.str s, rest) := by
  obtain ⟨n, hn, hread⟩ := parseValue_rawString gap depth s rest
  rw [hread, readString_literal hs hn]
  rfl

/-- A value whose strings are literals is read back, whatever follows its text. -/
theorem parseValue_raw (hgap : ∀ c ∈ gap, isSpace c = true) (h : Textual depth v)
    (hliteral : Literal depth v) (rest : GoString) :
    parseValue depth (rawText gap v ++ rest) = some (v, rest) := by
  induction depth generalizing v rest with
  | zero =>
    cases v with
    | str s => exact parseValue_literal hliteral 0 rest
    | _ => exact absurd h id
  | succ depth ih =>
    cases v with
    | str s => exact parseValue_literal hliteral (depth + 1) rest
    | arr items =>
      have hitems : ∀ j ∈ items, ReadsRaw gap depth (parseValue depth) j :=
        fun j hj => ⟨h j hj, ih (h j hj) (hliteral j hj)⟩
      have harray : readArray (parseValue depth) (rawItems gap items ++ 93 :: rest) =
          some (items, rest) := by
        by_cases hne : items = []
        · subst hne
          exact readArray_empty rest
        · have hlength := length_rawItems gap h
          rw [readArray, rawItems_open hne h]
          exact readItems_raw hgap hne hitems (by rw [List.length_append]; omega) rest
      rw [rawText_arr, parseValue_bracket, harray]
      rfl
    | obj members =>
      have hmembers : ∀ p ∈ members, IsLiteral p.1 ∧ ReadsRaw gap depth (parseValue depth) p.2 :=
        fun p hp => by
          have htextual : Textual depth p.2 := by
            refine (h.2 p hp).2.resolve_left fun hnull => ?_
            have hliteral := hliteral p hp
            rw [hnull] at hliteral
            exact not_literal_null depth hliteral
          exact ⟨(h.2 p hp).1, htextual, ih htextual (hliteral p hp)⟩
      have hobject : readObject (parseValue depth) (rawMembers gap members ++ 125 :: rest) =
          some (members, rest) := by
        by_cases hne : members = []
        · subst hne
          exact readObject_empty rest
        · have hlength := length_rawMembers gap members
          rw [readObject, rawMembers_open hne]
          exact readMembers_raw hgap hne hmembers (by rw [List.length_append]; omega) rest
      rw [rawText_obj, parseValue_brace, hobject]
      rfl
    | _ => exact absurd h id

/-! ## The marks of a text -/

theorem marks_gap (hgap : ∀ c ∈ gap, isSpace c = true) : marks gap = 0 := by
  refine List.countP_eq_zero.mpr fun c hc hmark => ?_
  have hspace := hgap c hc
  simp only [Bool.or_eq_true, decide_eq_true_eq] at hmark
  rcases hmark with rfl | rfl
  · exact absurd hspace (by decide)
  · exact absurd hspace (by decide)

/-- The marks of a member in a text. -/
def memberMarks (gap : GoString) (p : GoString × Json) : ℕ := marks p.1 + 2 + marks (rawText gap p.2)

theorem marks_rawMembers_sum (hgap : ∀ c ∈ gap, isSpace c = true)
    (members : List (GoString × Json)) :
    marks (rawMembers gap members) = (members.map (memberMarks gap)).sum := by
  induction members with
  | nil => rfl
  | cons p members ih =>
    obtain ⟨k, v⟩ := p
    have hcolon : ∀ s, marks (58 :: s) = marks s := marks_cons_of_ne (by decide) (by decide)
    have hcomma : ∀ s, marks (44 :: s) = marks s := marks_cons_of_ne (by decide) (by decide)
    rw [List.map_cons, List.sum_cons, memberMarks]
    by_cases hlast : members = []
    · subst hlast
      rw [rawMembers, marks_quote, marks_append, marks_quote, hcolon, List.map_nil, List.sum_nil]
      dsimp only
      omega
    · rw [rawMembers_cons k v hlast, marks_quote, marks_append, marks_quote, hcolon, marks_append,
        hcomma, marks_append, marks_gap hgap, ih]
      dsimp only
      omega

theorem marks_rawItems_sum (hgap : ∀ c ∈ gap, isSpace c = true) (items : List Json) :
    marks (rawItems gap items) = (items.map fun j => marks (rawText gap j)).sum := by
  induction items with
  | nil => rfl
  | cons j items ih =>
    have hcomma : ∀ s, marks (44 :: s) = marks s := marks_cons_of_ne (by decide) (by decide)
    rw [List.map_cons, List.sum_cons]
    by_cases hlast : items = []
    · subst hlast
      rw [rawItems, List.map_nil, List.sum_nil]
      omega
    · rw [rawItems_cons j hlast, marks_append, hcomma, marks_append, marks_gap hgap, ih]
      omega

theorem marks_rawMembers (hgap : ∀ c ∈ gap, isSpace c = true)
    (h : ∀ p ∈ members, marks (rawText gap p.2) = cost p.2) :
    marks (rawMembers gap members) = membersCost members := by
  rw [marks_rawMembers_sum hgap, membersCost_eq_sum]
  refine congrArg List.sum (List.map_congr_left fun p hp => ?_)
  rw [memberMarks, memberCost, h p hp]

theorem marks_rawItems (hgap : ∀ c ∈ gap, isSpace c = true)
    (h : ∀ j ∈ items, marks (rawText gap j) = cost j) :
    marks (rawItems gap items) = itemsCost items := by
  rw [marks_rawItems_sum hgap, itemsCost_eq_sum]
  exact congrArg List.sum (List.map_congr_left fun j hj => h j hj)

theorem marks_rawText_arr (hgap : ∀ c ∈ gap, isSpace c = true) (items : List Json) :
    marks (rawText gap (.arr items)) = (items.map fun j => marks (rawText gap j)).sum := by
  have hplain : ∀ (c : UInt8) s, c ≠ 34 → c ≠ 92 → marks (c :: s) = marks s :=
    fun c s hquote hslash => marks_cons_of_ne hquote hslash s
  rw [rawText, hplain 91 _ (by decide) (by decide), marks_append, marks_rawItems_sum hgap,
    hplain 93 _ (by decide) (by decide)]
  rfl

theorem marks_rawText_obj (hgap : ∀ c ∈ gap, isSpace c = true)
    (members : List (GoString × Json)) :
    marks (rawText gap (.obj members)) = (members.map (memberMarks gap)).sum := by
  have hplain : ∀ (c : UInt8) s, c ≠ 34 → c ≠ 92 → marks (c :: s) = marks s :=
    fun c s hquote hslash => marks_cons_of_ne hquote hslash s
  rw [rawText, hplain 123 _ (by decide) (by decide), marks_append, marks_rawMembers_sum hgap,
    hplain 125 _ (by decide) (by decide)]
  rfl

theorem marks_rawText_str (s : GoString) : marks (rawText gap (.str s)) = cost (.str s) := by
  have hnil : marks [] = 0 := rfl
  rw [rawText, marks_quote, marks_append, marks_quote, hnil, cost]

/-- The marks of a text are those that reading it back costs. -/
theorem marks_rawText (hgap : ∀ c ∈ gap, isSpace c = true) (h : Textual depth v) :
    marks (rawText gap v) = cost v := by
  induction depth generalizing v with
  | zero =>
    cases v with
    | str s => exact marks_rawText_str s
    | _ => exact absurd h id
  | succ depth ih =>
    cases v with
    | str s => exact marks_rawText_str s
    | arr items =>
      rw [marks_rawText_arr hgap, cost, itemsCost_eq_sum]
      exact congrArg List.sum (List.map_congr_left fun j hj => ih (h j hj))
    | obj members =>
      rw [marks_rawText_obj hgap, cost, membersCost_eq_sum]
      refine congrArg List.sum (List.map_congr_left fun p hp => ?_)
      rw [memberMarks, memberCost]
      rcases (h.2 p hp).2 with hnull | htextual
      · rw [hnull]
        rfl
      · rw [ih htextual]
    | _ => exact absurd h id

end Reading

end VissServer.Go
