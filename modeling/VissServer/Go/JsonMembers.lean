import VissServer.Go.JsonLiterals
import VissServer.Go.JsonMaps

/-!
The text of an object as the texts of its members with commas between them, and what is read
where one member and its comma are left out.
-/
namespace VissServer.Go

def printedMember (p : GoString × Json) : GoString := quote p.1 ++ 58 :: marshal p.2

/-- Members that are followed by another. -/
def membersBefore (members : List (GoString × Json)) : GoString :=
  members.flatMap fun p => printedMember p ++ [44]

/-- Members that follow another. -/
def membersAfter (members : List (GoString × Json)) : GoString :=
  members.flatMap fun p => 44 :: printedMember p

theorem marshalMembers_printed (p : GoString × Json) {members : List (GoString × Json)}
    (h : members ≠ []) :
    marshalMembers (p :: members) = printedMember p ++ 44 :: marshalMembers members := by
  have hcons := marshalMembers_cons p.1 p.2 h []
  rw [List.append_nil, List.append_nil] at hcons
  rw [printedMember, List.append_assoc, List.cons_append]
  exact hcons

/-- The text of the members around a member. -/
theorem marshalMembers_split (before : List (GoString × Json)) (p : GoString × Json)
    (after : List (GoString × Json)) :
    marshalMembers (before ++ p :: after) =
      membersBefore before ++ (printedMember p ++ membersAfter after) := by
  have hfirst : ∀ p : GoString × Json,
      marshalMembers (p :: after) = printedMember p ++ membersAfter after := by
    induction after with
    | nil => exact fun p => (List.append_nil (printedMember p)).symm
    | cons q after ih =>
      intro p
      rw [marshalMembers_printed p (List.cons_ne_nil q after), ih q]
      rfl
  induction before with
  | nil => exact hfirst p
  | cons q before ih =>
    rw [List.cons_append, marshalMembers_printed q (by simp), ih, membersBefore, membersBefore,
      List.flatMap_cons, List.append_assoc, List.append_assoc, List.singleton_append]

section Reading

variable {depth : ℕ} {value : GoString → Option (Json × GoString)} {s : GoString}
  {members : List (GoString × Json)}

/-- The text is read to its end as the members of an object, with enough fuel. -/
def ReadAsMembers (value : GoString → Option (Json × GoString)) (s : GoString)
    (members : List (GoString × Json)) : Prop :=
  ∀ n, s.length ≤ n → readMembers value n s = some (members, [])

theorem readAsMembers_last {p : GoString × Json} (hp : ReadsBack depth value p.2) :
    ReadAsMembers value (printedMember p ++ [125]) [(sanitizeString p.1, sanitize p.2)] := by
  intro n hn
  obtain ⟨n, rfl⟩ := Nat.exists_eq_succ_of_ne_zero (show n ≠ 0 by simp at hn; omega)
  have hstep := readMembers_step p.1 hp n (show isSpace 125 = false from rfl) (by decide) []
  rw [expect_of_ne (show (125 : UInt8) ≠ 44 by decide), expect_self] at hstep
  rw [printedMember, List.append_assoc, List.cons_append]
  exact hstep

theorem ReadAsMembers.cons (h : ReadAsMembers value s members) {p : GoString × Json}
    (hp : ReadsBack depth value p.2) :
    ReadAsMembers value (printedMember p ++ 44 :: s)
      ((sanitizeString p.1, sanitize p.2) :: members) := by
  intro n hn
  rw [List.length_append, List.length_cons] at hn
  obtain ⟨n, rfl⟩ := Nat.exists_eq_succ_of_ne_zero (show n ≠ 0 by omega)
  have hstep := readMembers_step p.1 hp n (show isSpace 44 = false from rfl) (by decide) s
  simp only [expect_self, h n (by omega)] at hstep
  rw [printedMember, List.append_assoc, List.cons_append]
  exact hstep

theorem ReadAsMembers.before (h : ReadAsMembers value s members)
    {before : List (GoString × Json)} (hbefore : ∀ p ∈ before, ReadsBack depth value p.2) :
    ReadAsMembers value (membersBefore before ++ s) (sanitizeMembers before ++ members) := by
  induction before with
  | nil => exact h
  | cons p before ih =>
    obtain ⟨hp, hrest⟩ := List.forall_mem_cons.mp hbefore
    have hcons := (ih hrest).cons hp
    rw [membersBefore, List.flatMap_cons, List.append_assoc, List.append_assoc,
      List.singleton_append]
    exact hcons

/-- Members after the first; the text ends with what reads as the others. -/
theorem ReadAsMembers.after {pack : GoString} (h : ReadAsMembers value pack members)
    {after : List (GoString × Json)} (hafter : ∀ p ∈ after, ReadsBack depth value p.2) :
    ∃ s, membersAfter after ++ 44 :: pack = 44 :: s ∧
      ReadAsMembers value s (sanitizeMembers after ++ members) := by
  induction after with
  | nil => exact ⟨pack, rfl, h⟩
  | cons p after ih =>
    obtain ⟨hp, hrest⟩ := List.forall_mem_cons.mp hafter
    obtain ⟨s, hs, hread⟩ := ih hrest
    refine ⟨printedMember p ++ 44 :: s, ?_, hread.cons hp⟩
    rw [membersAfter, List.flatMap_cons, List.append_assoc, ← membersAfter, hs, List.cons_append]

/-- The members after the first, where nothing is added to them. -/
theorem readAsMembers_after {after : List (GoString × Json)} (hne : after ≠ [])
    (hafter : ∀ p ∈ after, ReadsBack depth value p.2) :
    ∃ s, membersAfter after ++ [125] = 44 :: s ∧
      ReadAsMembers value s (sanitizeMembers after) := by
  induction after with
  | nil => exact absurd rfl hne
  | cons p after ih =>
    obtain ⟨hp, hrest⟩ := List.forall_mem_cons.mp hafter
    by_cases hlast : after = []
    · subst hlast
      exact ⟨printedMember p ++ [125], by simp [membersAfter], readAsMembers_last hp⟩
    · obtain ⟨s, hs, hread⟩ := ih hlast hrest
      refine ⟨printedMember p ++ 44 :: s, ?_, hread.cons hp⟩
      rw [membersAfter, List.flatMap_cons, List.append_assoc, ← membersAfter, hs, List.cons_append]

/-- What stands behind the members before it is read where they are read. -/
theorem readMembers_before_eq_none (h : ∀ n, readMembers value n s = none)
    {before : List (GoString × Json)} (hbefore : ∀ p ∈ before, ReadsBack depth value p.2) (n : ℕ) :
    readMembers value n (membersBefore before ++ s) = none := by
  induction before generalizing n with
  | nil => exact h n
  | cons p before ih =>
    obtain ⟨hp, hrest⟩ := List.forall_mem_cons.mp hbefore
    cases n with
    | zero => rfl
    | succ n =>
      have hstep := readMembers_step p.1 hp n (show isSpace 44 = false from rfl) (by decide)
        (membersBefore before ++ s)
      simp only [expect_self, ih hrest n] at hstep
      rw [membersBefore, List.flatMap_cons, List.append_assoc, List.append_assoc,
        List.singleton_append, printedMember, List.append_assoc, List.cons_append]
      exact hstep

/-- A member that is written behind a blank, its name between quotes. -/
theorem readAsMembers_named {name text : GoString} {v : Json} (hname : IsLiteral name)
    (hv : value (skipSpace (text ++ [125])) = some (v, [125])) :
    ReadAsMembers value (32 :: 34 :: (name ++ 34 :: 58 :: (text ++ [125]))) [(name, v)] := by
  intro n hn
  rw [List.length_cons] at hn
  obtain ⟨n, rfl⟩ := Nat.exists_eq_succ_of_ne_zero (show n ≠ 0 by omega)
  have hkey := readString_literal hname (show name.length <
    (name ++ 34 :: 58 :: (text ++ [125])).length by simp) (58 :: (text ++ [125]))
  rw [readMembers_space]
  simp only [readMembers, skipSpace_of_head (show isSpace 34 = false from rfl), expect_self, hkey,
    skipSpace_of_head (show isSpace 58 = false from rfl), hv,
    skipSpace_of_head (show isSpace 125 = false from rfl),
    expect_of_ne (show (125 : UInt8) ≠ 44 by decide), Option.bind_eq_bind, Option.bind_some]

end Reading

/-! ## Objects -/

theorem unmarshalMap_members {s : GoString} {members : List (GoString × Json)}
    (h : ReadAsMembers (parseValue (maxNestingDepth - 1)) s members) :
    unmarshalMap (123 :: s) = some (GoMap.ofMembers (canonMembers members)) := by
  have hread := h s.length le_rfl
  have hobject : readObject (parseValue (maxNestingDepth - 1)) s = some (members, []) := by
    unfold readObject
    split
    · next r hr =>
      rw [← hread]
      cases hlength : s.length with
      | zero => simp [List.length_eq_zero_iff.mp hlength, skipSpace, expect] at hr
      | succ n =>
        rw [hlength, readMembers, expect_some hr, expect_of_ne (show (125 : UInt8) ≠ 34 by decide)]
          at hread
        cases hread
    · exact hread
  have hparse : parseText (123 :: s) = some (.obj members) := by
    rw [parseText, parseFirst, skipSpace_of_head (show isSpace 123 = false from rfl),
      show maxNestingDepth = (maxNestingDepth - 1) + 1 from rfl, parseValue_brace, hobject]
    rfl
  rw [unmarshalMap, hparse]

/-- An object that ends in a quote before its closing brace. -/
theorem unmarshalMap_openQuote {before : List (GoString × Json)}
    (hbefore : ∀ p ∈ before, Printable (maxNestingDepth - 1) p.2) :
    unmarshalMap (123 :: (membersBefore before ++ [34, 125])) = none := by
  have hend : ∀ n, readMembers (parseValue (maxNestingDepth - 1)) n [34, 125] = none := by
    intro n
    cases n with
    | zero => rfl
    | succ n => rfl
  have hread := readMembers_before_eq_none hend fun p hp =>
    ⟨hbefore p hp, fun _ => parseValue_marshal (hbefore p hp)⟩
  have hquote : ∃ t, membersBefore before ++ [34, 125] = 34 :: t := by
    cases before with
    | nil => exact ⟨[125], rfl⟩
    | cons p before => exact ⟨_, rfl⟩
  obtain ⟨t, ht⟩ := hquote
  have hobject : readObject (parseValue (maxNestingDepth - 1))
      (membersBefore before ++ [34, 125]) = none := by
    rw [readObject, hread, ht, skipSpace_of_head (show isSpace 34 = false from rfl),
      expect_of_ne (show (34 : UInt8) ≠ 125 by decide)]
  have hparse : parseText (123 :: (membersBefore before ++ [34, 125])) = none := by
    rw [parseText, parseFirst, skipSpace_of_head (show isSpace 123 = false from rfl),
      show maxNestingDepth = (maxNestingDepth - 1) + 1 from rfl, parseValue_brace, hobject]
    rfl
  rw [unmarshalMap, hparse]

/-- Deleting a key from a decoded object is decoding the members without it. -/
theorem GoMap.ofMembers_delete {α : Type*} (members : List (GoString × α)) (k : GoString) :
    (ofMembers members).delete k = ofMembers (members.filter fun p => p.1 ≠ k) := by
  apply ((sorted_ofMembers members).delete k).ext (sorted_ofMembers _)
  intro k'
  rw [get_delete, get_ofMembers, get_ofMembers, ← List.filter_reverse]
  generalize members.reverse = l
  induction l with
  | nil => split <;> rfl
  | cons p l ih =>
    obtain ⟨k₁, v₁⟩ := p
    by_cases hk : k₁ = k
    · rw [List.filter_cons_of_neg (by simpa using hk), ← ih, lookup_cons_if]
      by_cases hk' : k' = k
      · rw [if_pos hk', if_pos hk']
      · rw [if_neg hk', if_neg hk', if_neg (hk ▸ hk')]
    · rw [List.filter_cons_of_pos (by simpa using hk), lookup_cons_if, lookup_cons_if, ← ih]
      by_cases hk' : k' = k₁
      · rw [if_pos hk', if_pos hk', if_neg (hk' ▸ hk)]
      · rw [if_neg hk', if_neg hk']

/-- An object whose member is cut out with the comma behind it. -/
theorem unmarshalMap_cut {before members : List (GoString × Json)} {p : GoString × Json}
    {s : GoString} (hbefore : ∀ q ∈ before, Printable (maxNestingDepth - 1) q.2)
    (hp : Printable (maxNestingDepth - 1) p.2)
    (hmembers : ReadAsMembers (parseValue (maxNestingDepth - 1)) s members)
    (hvalid : ValidString p.1) (hfirst : ∀ q ∈ before, sanitizeString q.1 ≠ p.1)
    (hlast : ∀ q ∈ members, q.1 ≠ p.1) :
    ∃ object, unmarshalMap (123 :: (membersBefore before ++ (printedMember p ++ 44 :: s))) =
        some object ∧
      unmarshalMap (123 :: (membersBefore before ++ s)) = some (object.delete p.1) := by
  have hreads : ∀ {q : GoString × Json}, Printable (maxNestingDepth - 1) q.2 →
      ReadsBack (maxNestingDepth - 1) (parseValue (maxNestingDepth - 1)) q.2 := by
    intro q hq
    exact ⟨hq, fun _ => parseValue_marshal hq⟩
  have hall : ∀ q ∈ before,
      ReadsBack (maxNestingDepth - 1) (parseValue (maxNestingDepth - 1)) q.2 :=
    fun q hq => hreads (hbefore q hq)
  refine ⟨_, unmarshalMap_members ((hmembers.cons (hreads hp)).before hall), ?_⟩
  rw [unmarshalMap_members (hmembers.before hall), GoMap.ofMembers_delete, Option.some.injEq]
  congr 1
  rw [canonMembers_eq_map, canonMembers_eq_map, sanitizeMembers_eq_map, List.filter_map,
    List.filter_append, List.filter_cons_of_neg (by simp [hvalid.sanitize])]
  congr 1
  rw [List.filter_eq_self.mpr, List.filter_eq_self.mpr]
  · intro q hq
    simpa using hlast q hq
  · intro q hq
    obtain ⟨q', hq', rfl⟩ := List.mem_map.mp hq
    simpa using hfirst q' hq'

end VissServer.Go
