import Mathlib.Data.List.Forall2
import VissServer.Go.JsonTexts

/-!
What can be read from the text of a value whose strings are put between quotes without an
escape. A value that keeps the members and the items of the one that the text was made of
costs all marks of the text, so that it is this value, and its strings are literals.
-/
namespace VissServer.Go

/-- The value, or the only item of an array. -/
def Single (P : Json → Prop) (v : Json) : Prop := P v ∨ ∃ j, v = .arr [j] ∧ P j

/-- A value in which the strings of another one are found again, the items of an array at
their places, the members of an object under their names. A string or an object may stand
in an array of its own; where a string is a literal any string will do, and where a text is
missing any value. -/
def Keeps : ℕ → Json → Json → Prop
  | _, .str s, v' => Single (fun j => j = .str s ∨ (IsLiteral s ∧ ∃ s', j = .str s')) v'
  | depth + 1, .arr items, v' => ∃ items', v' = .arr items' ∧ List.Forall₂ (Keeps depth) items items'
  | depth + 1, .obj members, v' => Single (fun j => ∃ members', j = .obj members' ∧
      ∀ p ∈ members, ∃ j, lastMember members' p.1 = some j ∧ (p.2 = .null ∨ Keeps depth p.2 j)) v'
  | _, _, _ => False

section Keeping

variable {gap : GoString} {depth n : ℕ} {k s rest r : GoString} {v v' : Json}
  {items items' : List Json} {members members' : List (GoString × Json)}
  {value : GoString → Option (Json × GoString)}

theorem lastMember_of_nodup (hnodup : (members.map Prod.fst).Nodup) {p : GoString × Json}
    (hp : p ∈ members) : lastMember members p.1 = some p.2 := by
  induction members with
  | nil => simp at hp
  | cons q members ih =>
    rw [List.map_cons, List.nodup_cons] at hnodup
    rw [lastMember_cons]
    rcases List.mem_cons.mp hp with rfl | hp
    · have hnone : lastMember members p.1 = none := by
        refine lastMember_eq_none fun q hq heq => ?_
        have hmem : q.1 ∈ members.map Prod.fst := List.mem_map_of_mem hq
        exact hnodup.1 (heq ▸ hmem)
      rw [hnone, Option.none_or, if_pos rfl]
    · rw [ih hnodup.2 hp, Option.some_or]

theorem keeps_str (depth : ℕ) (s : GoString) : Keeps depth (.str s) (.str s) := by
  cases depth <;> exact .inl (.inl rfl)

theorem Keeps.refl (h : Textual depth v) : Keeps depth v v := by
  induction depth generalizing v with
  | zero =>
    cases v with
    | str s => exact keeps_str 0 s
    | _ => exact absurd h id
  | succ depth ih =>
    cases v with
    | str s => exact keeps_str (depth + 1) s
    | arr items => exact ⟨items, rfl, List.forall₂_same.mpr fun j hj => ih (h j hj)⟩
    | obj members =>
      exact .inl ⟨members, rfl, fun p hp => ⟨p.2, lastMember_of_nodup h.1 hp,
        (h.2 p hp).2.imp_right fun htextual => ih htextual⟩⟩
    | _ => exact absurd h id

theorem Single.congr {P Q : Json → Prop} {r : Json} (h : Single P r) (hcanon : canon v' = canon r)
    (hP : ∀ {j j'}, P j → canon j' = canon j → Q j') : Single Q v' := by
  rcases h with h | ⟨j, rfl, h⟩
  · exact .inl (hP h hcanon)
  · cases v' with
    | arr items' =>
      simp only [canon, Json.arr.injEq, canonItems_eq_map, List.map_cons, List.map_nil,
        List.map_eq_singleton_iff] at hcanon
      obtain ⟨j', rfl, hj'⟩ := hcanon
      exact .inr ⟨j', rfl, hP h hj'⟩
    | _ => simp [canon] at hcanon

/-- Values with the same meaning keep the same. -/
theorem Keeps.congr {r : Json} (h : Keeps depth v r) (hcanon : canon v' = canon r) :
    Keeps depth v v' := by
  have hstring : ∀ {s : GoString} {r v' : Json},
      Single (fun j => j = .str s ∨ (IsLiteral s ∧ ∃ s', j = .str s')) r →
      canon v' = canon r →
      Single (fun j => j = .str s ∨ (IsLiteral s ∧ ∃ s', j = .str s')) v' := by
    intro s r v' hkeeps hcanon
    refine hkeeps.congr hcanon fun hj hj' => ?_
    rcases hj with rfl | ⟨hs, s', rfl⟩
    · exact .inl (canon_eq_str.mp hj')
    · exact .inr ⟨hs, s', canon_eq_str.mp hj'⟩
  induction depth generalizing v r v' with
  | zero =>
    cases v with
    | str s => exact hstring h hcanon
    | _ => exact absurd h id
  | succ depth ih =>
    cases v with
    | str s => exact hstring h hcanon
    | arr items =>
      obtain ⟨items', rfl, hitems⟩ := h
      cases v' with
      | arr items'' =>
        refine ⟨items'', rfl, ?_⟩
        simp only [canon, Json.arr.injEq, canonItems_eq_map] at hcanon
        induction hitems generalizing items'' with
        | nil =>
          obtain rfl := List.map_eq_nil_iff.mp hcanon
          exact .nil
        | cons hj _ ihitems =>
          cases items'' with
          | nil => simp at hcanon
          | cons j'' items'' =>
            rw [List.map_cons, List.map_cons, List.cons.injEq] at hcanon
            exact .cons (ih hj hcanon.1) (ihitems items'' hcanon.2)
      | _ => simp [canon] at hcanon
    | obj members =>
      refine Single.congr h hcanon fun {j j'} hj hj' => ?_
      obtain ⟨members', rfl, hmembers⟩ := hj
      cases j' with
      | obj members'' =>
        refine ⟨members'', rfl, fun p hp => ?_⟩
        obtain ⟨j, hlast, hj⟩ := hmembers p hp
        simp only [canon, Json.obj.injEq] at hj'
        have hget := congrArg (fun m => GoMap.get m p.1) hj'
        rw [get_canonMembers, get_canonMembers, hlast, Option.map_some] at hget
        obtain ⟨j'', hlast'', hj''⟩ := Option.map_eq_some_iff.mp hget
        exact ⟨j'', hlast'', hj.imp_right fun hkeeps => ih hkeeps hj''⟩
      | _ => simp [canon] at hj'
    | _ => exact absurd h id

/-- A decoded value keeps what it has the same meaning as. -/
theorem keeps_of_canon (h : Textual depth v) (hcanon : canon v' = canon v) : Keeps depth v v' :=
  (Keeps.refl h).congr hcanon

theorem itemsCost_le (h : List.Forall₂ (fun j j' => cost j ≤ cost j') items items') :
    itemsCost items ≤ itemsCost items' := by
  induction h with
  | nil => exact le_rfl
  | cons hj _ ih => exact Nat.add_le_add hj ih

theorem Single.cost_le {P : Json → Prop} {n : ℕ} (h : Single P v') (hP : ∀ {j}, P j → n ≤ cost j) :
    n ≤ cost v' := by
  rcases h with h | ⟨j, rfl, h⟩
  · exact hP h
  · have hle := hP h
    simp only [cost, itemsCost]
    omega

/-- What a value keeps, it costs. -/
theorem Keeps.cost_le (h : Textual depth v) (hkeeps : Keeps depth v v') : cost v ≤ cost v' := by
  have hstring : ∀ {s : GoString} {v' : Json},
      Single (fun j => j = .str s ∨ (IsLiteral s ∧ ∃ s', j = .str s')) v' →
      cost (.str s) ≤ cost v' := by
    intro s v' hkeeps
    refine hkeeps.cost_le fun hj => ?_
    rcases hj with rfl | ⟨hs, s', rfl⟩
    · exact le_rfl
    · simp only [cost, hs.marks_eq_zero]
      omega
  induction depth generalizing v v' with
  | zero =>
    cases v with
    | str s => exact hstring hkeeps
    | _ => exact absurd h id
  | succ depth ih =>
    cases v with
    | str s => exact hstring hkeeps
    | arr items =>
      obtain ⟨items', rfl, hitems⟩ := hkeeps
      refine itemsCost_le ?_
      rw [List.forall₂_iff_get] at hitems ⊢
      exact ⟨hitems.1, fun i h₁ h₂ => ih (h _ (List.get_mem ..)) (hitems.2 i h₁ h₂)⟩
    | obj members =>
      refine Single.cost_le hkeeps fun hj => ?_
      obtain ⟨members', rfl, hmembers⟩ := hj
      refine membersCost_le_of_kept h.1 fun p hp => ?_
      obtain ⟨j, hlast, hj⟩ := hmembers p hp
      refine ⟨j, hlast, ?_⟩
      rcases hj with hnull | hj
      · rw [hnull]
        exact Nat.zero_le _
      · rcases (h.2 p hp).2 with hnull | htextual
        · rw [hnull]
          exact Nat.zero_le _
        · exact ih htextual hj
    | _ => exact absurd h id

/-- Where the reader of values keeps a value whose text it reads, and leaves all marks of what
follows the text, it gives back the value, whose strings are literals. -/
def KeepsRaw (gap : GoString) (depth : ℕ) (value : GoString → Option (Json × GoString))
    (v : Json) : Prop :=
  Textual depth v ∧ ∀ v' rest r, value (rawText gap v ++ rest) = some (v', r) →
    Keeps depth v v' → marks rest ≤ marks r → v' = v ∧ Literal depth v ∧ r = rest

theorem readString_kept (h : readString n (s ++ 34 :: rest) = some (s, r))
    (hmarks : marks rest ≤ marks r) : IsLiteral s ∧ r = rest := by
  rcases readString_split (readString_valid h) h with ⟨hs, -, hrest⟩ | hshort | ⟨n', w, hread⟩
  · exact ⟨hs, hrest⟩
  · omega
  · have hcost := readString_marks hread
    omega

/-- How an array that begins with an item is read. -/
theorem readItems_inversion {j : Json} (h : readItems value n s = some (j :: items, r)) :
    ∃ m s₁, value (skipSpace s) = some (j, s₁) ∧
      (items = [] ∧ expect 93 (skipSpace s₁) = some r ∨
        ∃ s₂, items ≠ [] ∧ expect 44 (skipSpace s₁) = some s₂ ∧
          readItems value m s₂ = some (items, r)) := by
  cases n with
  | zero => simp [readItems] at h
  | succ n =>
    rw [readItems_value, Option.bind_eq_some_iff] at h
    obtain ⟨⟨j', s₁⟩, hfirst, h⟩ := h
    dsimp only at h
    cases hnext : expect 44 (skipSpace s₁) with
    | some s₂ =>
      simp only [hnext, Option.map_eq_some_iff, Prod.mk.injEq, List.cons.injEq] at h
      obtain ⟨⟨items', r'⟩, hitems, ⟨rfl, rfl⟩, rfl⟩ := h
      exact ⟨n, s₁, hfirst, .inr ⟨s₂, readItems_ne_nil hitems, hnext, hitems⟩⟩
    | none =>
      simp only [hnext, Option.map_eq_some_iff, Prod.mk.injEq, List.cons.injEq] at h
      obtain ⟨s₂, hend, ⟨rfl, rfl⟩, rfl⟩ := h
      exact ⟨n, s₁, hfirst, .inl ⟨rfl, hend⟩⟩

/-- How an object whose first name is a literal is read. -/
theorem readMembers_inversion (hk : IsLiteral k)
    (h : readMembers value n (34 :: (k ++ 34 :: 58 :: s)) = some (members, r)) :
    ∃ v members' m s₁, members = (k, v) :: members' ∧ value (skipSpace s) = some (v, s₁) ∧
      (members' = [] ∧ expect 125 (skipSpace s₁) = some r ∨
        ∃ s₂, members' ≠ [] ∧ expect 44 (skipSpace s₁) = some s₂ ∧
          readMembers value m s₂ = some (members', r)) := by
  cases n with
  | zero => simp [readMembers] at h
  | succ n =>
    rw [readMembers_named hk, Option.bind_eq_some_iff] at h
    obtain ⟨⟨v, s₁⟩, hfirst, h⟩ := h
    dsimp only at h
    cases hnext : expect 44 (skipSpace s₁) with
    | some s₂ =>
      simp only [hnext, Option.map_eq_some_iff, Prod.mk.injEq] at h
      obtain ⟨⟨members', r'⟩, hmembers, rfl, rfl⟩ := h
      exact ⟨v, members', n, s₁, rfl, hfirst,
        .inr ⟨s₂, readMembers_ne_nil hmembers, hnext, hmembers⟩⟩
    | none =>
      simp only [hnext, Option.map_eq_some_iff, Prod.mk.injEq] at h
      obtain ⟨s₂, hend, rfl, rfl⟩ := h
      exact ⟨v, [], n, s₁, rfl, hfirst, .inl ⟨rfl, hend⟩⟩

theorem readItems_keepsRaw (hgap : ∀ c ∈ gap, isSpace c = true) (hvalue : Charges value)
    (h : ∀ j ∈ items, KeepsRaw gap depth value j)
    (hread : readItems value n (rawItems gap items ++ 93 :: rest) = some (items', r))
    (hkeeps : List.Forall₂ (Keeps depth) items items') (hmarks : marks rest ≤ marks r) :
    items' = items ∧ (∀ j ∈ items, Literal depth j) ∧ r = rest := by
  have hplain : ∀ c s, c ≠ 34 → c ≠ 92 → marks (c :: s) = marks s :=
    fun c s hquote hslash => marks_cons_of_ne hquote hslash s
  induction hkeeps generalizing n with
  | nil => exact absurd rfl (readItems_ne_nil hread)
  | @cons j j' items items' hkeep hkeeps ih =>
    obtain ⟨⟨htextual, hj⟩, hitems⟩ := List.forall_mem_cons.mp h
    obtain ⟨m, s₁, hfirst, hnext⟩ := readItems_inversion hread
    rcases hnext with ⟨rfl, hend⟩ | ⟨s₂, hne, hcomma, hnext⟩
    · obtain rfl := List.forall₂_nil_right_iff.mp hkeeps
      rw [rawItems, skipSpace_rawText htextual] at hfirst
      obtain ⟨rfl, hlit, rfl⟩ := hj _ _ _ hfirst hkeep (by
        have hle := marks_expect hend
        rw [hplain 93 _ (by decide) (by decide)]
        omega)
      rw [skipSpace_of_head (show isSpace 93 = false from rfl), expect_self] at hend
      exact ⟨rfl, List.forall_mem_cons.mpr ⟨hlit, by simp⟩, (Option.some.inj hend).symm⟩
    · have htext : rawItems gap (j :: items) ++ 93 :: rest =
          rawText gap j ++ 44 :: (gap ++ (rawItems gap items ++ 93 :: rest)) := by
        have hitems : items ≠ [] := by
          intro hnil
          subst hnil
          exact hne (List.forall₂_nil_left_iff.mp hkeeps)
        simp [rawItems_cons j hitems]
      have hspent : itemsCost items' + marks r ≤ marks s₁ :=
        Nat.le_trans (readItems_charges hvalue hnext) (marks_expect hcomma)
      have hkept : itemsCost items ≤ itemsCost items' := by
        refine itemsCost_le ?_
        rw [List.forall₂_iff_get] at hkeeps ⊢
        exact ⟨hkeeps.1, fun i h₁ h₂ =>
          (hkeeps.2 i h₁ h₂).cost_le (hitems _ (List.get_mem ..)).1⟩
      rw [htext, skipSpace_rawText htextual] at hfirst
      obtain ⟨rfl, hlit, rfl⟩ := hj _ _ _ hfirst hkeep (by
        rw [hplain 44 _ (by decide) (by decide), marks_append, marks_gap hgap, marks_append,
          marks_rawItems hgap fun j hj => marks_rawText hgap (hitems j hj).1,
          hplain 93 _ (by decide) (by decide)]
        omega)
      rw [skipSpace_of_head (show isSpace 44 = false from rfl), expect_self] at hcomma
      obtain rfl := Option.some.inj hcomma
      rw [readItems_gap hgap] at hnext
      obtain ⟨rfl, hlits, rfl⟩ := ih hitems hnext
      exact ⟨rfl, List.forall_mem_cons.mpr ⟨hlit, hlits⟩, rfl⟩

/-- The text of a member and what follows it: the end of the object, or the other members. -/
theorem rawMembers_first (gap k : GoString) (v : Json) (members : List (GoString × Json))
    (rest : GoString) :
    rawMembers gap ((k, v) :: members) ++ 125 :: rest =
      34 :: (k ++ 34 :: 58 :: (rawText gap v ++ if members = [] then 125 :: rest
        else 44 :: (gap ++ (rawMembers gap members ++ 125 :: rest)))) := by
  split
  · next hlast => simp [hlast, rawMembers]
  · next hlast => simp [rawMembers_cons k v hlast]

/-- The members that are kept under the names of an object, without its first one. -/
theorem kept_tail {P : Json → Json → Prop} {p : GoString × Json}
    (hnodup : ((k, v) :: members).map Prod.fst |>.Nodup)
    (h : ∀ p ∈ members, ∃ j, lastMember ((k, v') :: members') p.1 = some j ∧ P p.2 j)
    (hp : p ∈ members) : ∃ j, lastMember members' p.1 = some j ∧ P p.2 j := by
  obtain ⟨j, hlast, hj⟩ := h p hp
  have hmem : p.1 ∈ members.map Prod.fst := List.mem_map_of_mem hp
  refine ⟨j, lastMember_of_ne (fun heq => ?_) hlast, hj⟩
  exact (List.nodup_cons.mp hnodup).1 (heq ▸ hmem)

/-- A member whose text is there, and kept, or that is missing. -/
theorem member_cost_le {j : Json} (h : v = .null ∨ KeepsRaw gap depth value v)
    (hkeeps : v = .null ∨ Keeps depth v j) : cost v ≤ cost j := by
  rcases h with rfl | h
  · exact Nat.zero_le _
  · rcases hkeeps with rfl | hkeeps
    · exact Nat.zero_le _
    · exact hkeeps.cost_le h.1

theorem member_marks (hgap : ∀ c ∈ gap, isSpace c = true)
    (h : v = .null ∨ KeepsRaw gap depth value v) : marks (rawText gap v) = cost v := by
  rcases h with rfl | h
  · rfl
  · exact marks_rawText hgap h.1

theorem readMembers_keepsRaw (hgap : ∀ c ∈ gap, isSpace c = true) (hvalue : Charges value)
    (hmissing : ∀ c t, c = 44 ∨ c = 125 → value (c :: t) = none)
    (hnodup : (members.map Prod.fst).Nodup)
    (h : ∀ p ∈ members, IsLiteral p.1 ∧ (p.2 = .null ∨ KeepsRaw gap depth value p.2))
    (hread : readMembers value n (rawMembers gap members ++ 125 :: rest) = some (members', r))
    (hkeeps : ∀ p ∈ members, ∃ j, lastMember members' p.1 = some j ∧
      (p.2 = .null ∨ Keeps depth p.2 j))
    (hne : members ≠ []) (hmarks : marks rest ≤ marks r) :
    members' = members ∧ (∀ p ∈ members, Literal depth p.2) ∧ r = rest := by
  have hplain : ∀ c s, c ≠ 34 → c ≠ 92 → marks (c :: s) = marks s :=
    fun c s hquote hslash => marks_cons_of_ne hquote hslash s
  induction members generalizing n members' with
  | nil => exact absurd rfl hne
  | cons p members ih =>
    obtain ⟨k, v⟩ := p
    obtain ⟨⟨hk, hv⟩, hmembers⟩ := List.forall_mem_cons.mp h
    obtain ⟨⟨j, hlast, hkeep⟩, hkeeps⟩ := List.forall_mem_cons.mp hkeeps
    dsimp only at hv hlast hkeep
    have hcharges := readMembers_charges hvalue hread
    have hmarked : marks (rawMembers gap ((k, v) :: members) ++ 125 :: rest) =
        marks k + 2 + cost v + membersCost members + marks rest := by
      rw [marks_append, marks_rawMembers hgap fun p hp => member_marks hgap (h p hp).2,
        hplain 125 _ (by decide) (by decide), membersCost]
    rw [hmarked] at hcharges
    rw [rawMembers_first] at hread
    obtain ⟨v', members', m, s₁, rfl, hfirst, hnext⟩ := readMembers_inversion hk hread
    have htail := fun p hp => kept_tail (p := p) (P := fun v j => v = .null ∨ Keeps depth v j)
      hnodup hkeeps hp
    have hkept : membersCost members ≤ membersCost members' :=
      membersCost_le_of_kept (List.nodup_cons.mp hnodup).2 fun p hp => by
        obtain ⟨j, hlast, hj⟩ := htail p hp
        exact ⟨j, hlast, member_cost_le (hmembers p hp).2 hj⟩
    have hj : v' = j := by
      rw [lastMember_cons, if_pos rfl] at hlast
      cases hlater : lastMember members' k with
      | none =>
        rw [hlater, Option.none_or] at hlast
        exact Option.some.inj hlast
      | some j' =>
        -- the name comes again: all members are kept behind the first one
        exfalso
        rw [hlater, Option.some_or] at hlast
        obtain rfl := Option.some.inj hlast
        have hall : membersCost ((k, v) :: members) ≤ membersCost members' :=
          membersCost_le_of_kept hnodup <| List.forall_mem_cons.mpr
            ⟨⟨j', hlater, member_cost_le hv hkeep⟩, fun p hp => by
              obtain ⟨j, hlast, hj⟩ := htail p hp
              exact ⟨j, hlast, member_cost_le (hmembers p hp).2 hj⟩⟩
        simp only [membersCost] at hcharges hall
        omega
    subst hj
    have hspent : membersCost members' + marks r ≤ marks s₁ := by
      rcases hnext with ⟨rfl, hend⟩ | ⟨s₂, -, hcomma, hnext⟩
      · have hle := marks_expect hend
        rw [membersCost]
        omega
      · exact Nat.le_trans (readMembers_charges hvalue hnext) (marks_expect hcomma)
    rcases hv with rfl | hv
    · -- the text of the value is missing
      have hnone : ∀ c t, c = 44 ∨ c = 125 → value (skipSpace (c :: t)) = none := by
        intro c t hc
        rw [skipSpace_of_head (by rcases hc with rfl | rfl <;> rfl), hmissing c t hc]
      rw [show rawText gap .null = [] from rfl, List.nil_append] at hfirst
      split at hfirst
      · simp [hnone 125 rest (.inr rfl)] at hfirst
      · simp [hnone 44 _ (.inl rfl)] at hfirst
    obtain ⟨htextual, hv⟩ := hv
    have hkeep : Keeps depth v v' := by
      refine hkeep.resolve_left fun hnull => ?_
      rw [hnull] at htextual
      cases depth <;> exact htextual
    rw [skipSpace_rawText htextual] at hfirst
    obtain ⟨rfl, hlit, rfl⟩ := hv _ _ _ hfirst hkeep (by
      split
      · rw [hplain 125 _ (by decide) (by decide)]
        omega
      · rw [hplain 44 _ (by decide) (by decide), marks_append, marks_gap hgap, marks_append,
          marks_rawMembers hgap fun p hp => member_marks hgap (hmembers p hp).2,
          hplain 125 _ (by decide) (by decide)]
        omega)
    by_cases hnil : members = []
    · subst hnil
      rw [if_pos rfl, skipSpace_of_head (show isSpace 125 = false from rfl)] at hnext
      rcases hnext with ⟨rfl, hend⟩ | ⟨s₂, -, hcomma, -⟩
      · rw [expect_self] at hend
        exact ⟨rfl, List.forall_mem_cons.mpr ⟨hlit, by simp⟩, (Option.some.inj hend).symm⟩
      · simp [expect_of_ne (show (125 : UInt8) ≠ 44 by decide)] at hcomma
    · rw [if_neg hnil, skipSpace_of_head (show isSpace 44 = false from rfl)] at hnext
      rcases hnext with ⟨-, hend⟩ | ⟨s₂, -, hcomma, hnext⟩
      · simp [expect_of_ne (show (44 : UInt8) ≠ 125 by decide)] at hend
      · rw [expect_self] at hcomma
        obtain rfl := Option.some.inj hcomma
        rw [readMembers_gap hgap] at hnext
        obtain ⟨rfl, hlits, rfl⟩ := ih (List.nodup_cons.mp hnodup).2 hmembers hnext htail hnil
        exact ⟨rfl, List.forall_mem_cons.mpr ⟨hlit, hlits⟩, rfl⟩

/-- No value begins with a comma or a closing brace. -/
theorem parseValue_missing (depth : ℕ) (c : UInt8) (t : GoString) (hc : c = 44 ∨ c = 125) :
    parseValue depth (c :: t) = none := by
  have hscalar : parseScalar (c :: t) = none := by
    rcases hc with rfl | rfl <;> rfl
  cases depth with
  | zero => rcases hc with rfl | rfl <;> simp [parseValue, hscalar]
  | succ depth =>
    rcases hc with rfl | rfl <;> simp [parseValue, hscalar, expect]

/-- A value that keeps the one whose text it was read from, with all marks left of what
follows, is this value, and its strings are literals. -/
theorem parseValue_kept (hgap : ∀ c ∈ gap, isSpace c = true) (h : Textual depth v)
    (hread : parseValue depth (rawText gap v ++ rest) = some (v', r))
    (hkeeps : Keeps depth v v') (hmarks : marks rest ≤ marks r) :
    v' = v ∧ Literal depth v ∧ r = rest := by
  have hstring : ∀ {s : GoString} depth rest v' r,
      parseValue depth (rawText gap (.str s) ++ rest) = some (v', r) →
      Single (fun j => j = .str s ∨ (IsLiteral s ∧ ∃ s', j = .str s')) v' →
      marks rest ≤ marks r → v' = .str s ∧ IsLiteral s ∧ r = rest := by
    intro s depth rest v' r hread hkeeps hmarks
    obtain ⟨n, hn, hbody⟩ := parseValue_rawString gap depth s rest
    simp only [hbody, Option.map_eq_some_iff, Prod.mk.injEq] at hread
    obtain ⟨⟨w, r'⟩, hread, rfl, rfl⟩ := hread
    rcases hkeeps with (hw | ⟨hs, -⟩) | ⟨j, hw, -⟩
    · obtain rfl := Json.str.inj hw
      exact ⟨rfl, readString_kept hread hmarks⟩
    · rw [readString_literal hs hn] at hread
      obtain ⟨rfl, rfl⟩ := Prod.mk.inj (Option.some.inj hread)
      exact ⟨rfl, hs, rfl⟩
    · simp at hw
  induction depth generalizing v v' rest r with
  | zero =>
    cases v with
    | str s => exact hstring 0 rest v' r hread hkeeps hmarks
    | _ => exact absurd h id
  | succ depth ih =>
    cases v with
    | str s => exact hstring (depth + 1) rest v' r hread hkeeps hmarks
    | arr items =>
      obtain ⟨items', rfl, hkeeps⟩ := hkeeps
      simp only [rawText_arr, parseValue_bracket, Option.map_eq_some_iff, Prod.mk.injEq,
        Json.arr.injEq] at hread
      obtain ⟨⟨items', r'⟩, hread, rfl, rfl⟩ := hread
      dsimp only at hread hmarks hkeeps ⊢
      by_cases hne : items = []
      · subst hne
        rw [readArray_empty] at hread
        obtain ⟨rfl, rfl⟩ := Prod.mk.inj (Option.some.inj hread)
        exact ⟨rfl, by simp [Literal], rfl⟩
      · rw [readArray, rawItems_open hne h] at hread
        obtain ⟨rfl, hlits, rfl⟩ := readItems_keepsRaw hgap (parseValue_charges depth)
          (fun j hj => ⟨h j hj, fun _ _ _ => ih (h j hj)⟩) hread hkeeps hmarks
        exact ⟨rfl, hlits, rfl⟩
    | obj members =>
      simp only [rawText_obj, parseValue_brace, Option.map_eq_some_iff, Prod.mk.injEq] at hread
      obtain ⟨⟨members', r'⟩, hread, rfl, rfl⟩ := hread
      dsimp only at hread hmarks ⊢
      rcases hkeeps with ⟨members'', heq, hkeeps⟩ | ⟨j, heq, -⟩
      · obtain rfl := Json.obj.inj heq
        by_cases hne : members = []
        · subst hne
          rw [readObject_empty] at hread
          obtain ⟨rfl, rfl⟩ := Prod.mk.inj (Option.some.inj hread)
          exact ⟨rfl, by simp [Literal], rfl⟩
        · rw [readObject, rawMembers_open hne] at hread
          obtain ⟨rfl, hlits, rfl⟩ := readMembers_keepsRaw hgap (parseValue_charges depth)
            (parseValue_missing depth) h.1
            (fun p hp => ⟨(h.2 p hp).1, (h.2 p hp).2.imp_right fun htextual =>
              ⟨htextual, fun _ _ _ => ih htextual⟩⟩) hread hkeeps hne hmarks
          exact ⟨rfl, hlits, rfl⟩
      · simp at heq
    | _ => exact absurd h id

/-- What is read from a text costs no more than its marks. -/
theorem parseText_cost (h : parseText s = some v) : cost v ≤ marks s := by
  simp only [parseText, parseFirst, Option.bind_eq_bind, Option.bind_eq_some_iff] at h
  obtain ⟨⟨v', r⟩, hread, h⟩ := h
  dsimp only at h
  split at h
  · obtain rfl := Option.some.inj h
    have hcharges := parseValue_charges maxNestingDepth _ _ _ hread
    have hspace := marks_skipSpace s
    omega
  · simp at h

theorem parseText_eq (h : Textual depth v) :
    parseText (rawText gap v) = (parseValue maxNestingDepth (rawText gap v)).bind fun p =>
      if skipSpace p.2 = [] then some p.1 else none := by
  have hspace : skipSpace (rawText gap v) = rawText gap v := by
    simpa only [List.append_nil] using skipSpace_rawText h []
  rw [parseText, parseFirst, hspace]
  rfl

/-- A value whose strings are literals is read back from its text. -/
theorem parseText_literal (hgap : ∀ c ∈ gap, isSpace c = true) (h : Textual maxNestingDepth v)
    (hliteral : Literal maxNestingDepth v) : parseText (rawText gap v) = some v := by
  have hread := parseValue_raw hgap h hliteral []
  rw [List.append_nil] at hread
  rw [parseText_eq h, hread, Option.bind_some]
  rfl

/-- From the text of a value one that keeps it is read if and only if its strings are
literals. -/
theorem parseText_keeps_iff (hgap : ∀ c ∈ gap, isSpace c = true)
    (h : Textual maxNestingDepth v) :
    (∃ v', parseText (rawText gap v) = some v' ∧ Keeps maxNestingDepth v v') ↔
      Literal maxNestingDepth v := by
  constructor
  · intro hread
    obtain ⟨v', hread, hkeeps⟩ := hread
    rw [parseText_eq h, Option.bind_eq_some_iff] at hread
    obtain ⟨⟨v₁, r⟩, hread, hend⟩ := hread
    rw [← List.append_nil (rawText gap v)] at hread
    split at hend
    · obtain rfl := Option.some.inj hend
      exact (parseValue_kept hgap h hread hkeeps (Nat.zero_le _)).2.1
    · simp at hend
  · intro hliteral
    exact ⟨v, parseText_literal hgap h hliteral, Keeps.refl h⟩

/-- The text of a value means the value if and only if all its strings are literals. -/
theorem parseText_canon_iff (hgap : ∀ c ∈ gap, isSpace c = true)
    (h : Textual maxNestingDepth v) :
    (parseText (rawText gap v)).map canon = some (canon v) ↔ Literal maxNestingDepth v := by
  constructor
  · intro hread
    obtain ⟨v', hread, hcanon⟩ := Option.map_eq_some_iff.mp hread
    exact (parseText_keeps_iff hgap h).mp ⟨v', hread, keeps_of_canon h hcanon⟩
  · intro hliteral
    rw [parseText_literal hgap h hliteral, Option.map_some]

theorem parseText_self_iff (hgap : ∀ c ∈ gap, isSpace c = true)
    (h : Textual maxNestingDepth v) :
    parseText (rawText gap v) = some v ↔ Literal maxNestingDepth v := by
  constructor
  · intro hread
    apply (parseText_canon_iff hgap h).mp
    rw [hread, Option.map_some]
  · exact parseText_literal hgap h

/-- A text does not mean a value that keeps something with more marks than the text has. -/
theorem Keeps.short {s : GoString} {v v' : Json} (hkeeps : Keeps maxNestingDepth v v')
    (h : Textual maxNestingDepth v) (hshort : marks s < cost v) :
    (parseText s).map canon ≠ some (canon v') := by
  intro hread
  obtain ⟨v'', hread, hcanon⟩ := Option.map_eq_some_iff.mp hread
  have hkept := (hkeeps.congr hcanon).cost_le h
  have hcost := parseText_cost hread
  omega

end Keeping

end VissServer.Go
