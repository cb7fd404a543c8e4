import VissServer.Go.JsonKept

/-!
Objects with members that may be left out. A table lists the names that an object can have,
in the order of its text, each with its value where the member is there.
-/
namespace VissServer.Go

/-- The members that are there. -/
def present (table : List (GoString × Option Json)) : List (GoString × Json) :=
  table.filterMap fun p => p.2.map fun j => (p.1, j)

/-- The text of a member behind a comma; nothing where it is left out. -/
def memberTail (gap : GoString) : GoString × Option Json → GoString
  | (_, none) => []
  | (k, some j) => 44 :: (gap ++ 34 :: (k ++ 34 :: 58 :: rawText gap j))

/-- The marks of an entry's text, and what reading the entry costs. -/
def entryMarks (gap : GoString) : GoString × Option Json → ℕ
  | (_, none) => 0
  | (k, some j) => marks k + 2 + marks (rawText gap j)

def entryCost : GoString × Option Json → ℕ
  | (_, none) => 0
  | (k, some j) => marks k + 2 + cost j

/-- One item stands for itself, any other number of items in an array. -/
def listValue : List Json → Json
  | [j] => j
  | items => .arr items

section Tables

variable {gap : GoString} {depth : ℕ} {k : GoString} {table : List (GoString × Option Json)}

theorem mem_present {p : GoString × Json} : p ∈ present table ↔ (p.1, some p.2) ∈ table := by
  rw [present, List.mem_filterMap]
  constructor
  · intro h
    obtain ⟨⟨k, o⟩, hmem, hp⟩ := h
    obtain ⟨j, rfl, rfl⟩ := Option.map_eq_some_iff.mp hp
    exact hmem
  · intro h
    exact ⟨_, h, rfl⟩

theorem present_none (k : GoString) (table : List (GoString × Option Json)) :
    present ((k, none) :: table) = present table := rfl

theorem present_some (k : GoString) (j : Json) (table : List (GoString × Option Json)) :
    present ((k, some j) :: table) = (k, j) :: present table := rfl

theorem names_present (table : List (GoString × Option Json)) :
    ((present table).map Prod.fst).Sublist (table.map Prod.fst) := by
  induction table with
  | nil => exact .slnil
  | cons p table ih =>
    obtain ⟨k, o⟩ := p
    cases o with
    | none => exact ih.cons k
    | some j => exact ih.cons_cons k

/-- The text of an object with a first member. -/
theorem rawText_present (gap k : GoString) (j : Json) (table : List (GoString × Option Json)) :
    rawText gap (.obj ((k, j) :: present table)) =
      123 :: 34 :: (k ++ 34 :: 58 :: (rawText gap j ++ (table.flatMap (memberTail gap) ++ [125]))) := by
  have hmembers : ∀ k j, rawMembers gap ((k, j) :: present table) =
      34 :: (k ++ 34 :: 58 :: (rawText gap j ++ table.flatMap (memberTail gap))) := by
    induction table with
    | nil =>
      intro k j
      simp [present, rawMembers]
    | cons p table ih =>
      intro k j
      obtain ⟨k', o⟩ := p
      cases o with
      | none =>
        rw [present_none, ih, List.flatMap_cons, memberTail, List.nil_append]
      | some j' =>
        rw [present_some, rawMembers_cons k j (List.cons_ne_nil _ _), ih, List.flatMap_cons,
          memberTail]
        simp
  rw [rawText, hmembers]
  simp

theorem get_present (hnodup : (table.map Prod.fst).Nodup) (k : GoString) :
    (GoMap.ofMembers (canonMembers (present table))).get k =
      ((table.lookup k).join).map canon := by
  rw [get_canonMembers]
  refine congrArg (Option.map canon) ?_
  induction table with
  | nil => rfl
  | cons p table ih =>
    obtain ⟨k', o⟩ := p
    rw [List.map_cons, List.nodup_cons] at hnodup
    have hlater := ih hnodup.2
    have hnone : k = k' → lastMember (present table) k = none := by
      intro heq
      refine lastMember_eq_none fun q hq hname => hnodup.1 ?_
      rw [← heq, ← hname]
      exact (names_present table).subset (List.mem_map_of_mem hq)
    rw [GoMap.lookup_cons_if]
    cases o with
    | none =>
      rw [present_none]
      split
      · next heq => rw [hnone heq]; rfl
      · exact hlater
    | some j =>
      rw [present_some, lastMember_cons]
      split
      · next heq => rw [hnone heq]; rfl
      · rw [Option.or_none, hlater]

theorem valueAt_present (hnodup : (table.map Prod.fst).Nodup) (k : GoString) :
    valueAt (GoMap.ofMembers (canonMembers (present table))) k =
      (((table.lookup k).join).map canon).getD .null := by
  rw [valueAt, get_present hnodup]

theorem textual_present (hnodup : (table.map Prod.fst).Nodup)
    (hnames : ∀ k ∈ table.map Prod.fst, IsLiteral k)
    (h : ∀ p ∈ table, ∀ j ∈ p.2, j = .null ∨ Textual depth j) :
    Textual (depth + 1) (.obj (present table)) := by
  refine ⟨(names_present table).nodup hnodup, fun p hp => ?_⟩
  have hmem := mem_present.mp hp
  exact ⟨hnames _ (List.mem_map_of_mem hmem), h _ hmem _ rfl⟩

theorem marks_present (hgap : ∀ c ∈ gap, isSpace c = true)
    (table : List (GoString × Option Json)) :
    marks (rawText gap (.obj (present table))) = (table.map (entryMarks gap)).sum := by
  rw [marks_rawText_obj hgap]
  induction table with
  | nil => rfl
  | cons p table ih =>
    obtain ⟨k, o⟩ := p
    cases o with
    | none => rw [present_none, ih, List.map_cons, List.sum_cons, entryMarks, Nat.zero_add]
    | some j => rw [present_some, List.map_cons, List.sum_cons, ih, List.map_cons, List.sum_cons,
        entryMarks, memberMarks]

theorem cost_present (table : List (GoString × Option Json)) :
    cost (.obj (present table)) = (table.map entryCost).sum := by
  rw [cost]
  induction table with
  | nil => rfl
  | cons p table ih =>
    obtain ⟨k, o⟩ := p
    cases o with
    | none => rw [present_none, ih, List.map_cons, List.sum_cons, entryCost, Nat.zero_add]
    | some j => rw [present_some, membersCost_cons, ih, List.map_cons, List.sum_cons, entryCost,
        memberCost]

theorem entryMarks_eq (hgap : ∀ c ∈ gap, isSpace c = true) {o : Option Json}
    (h : ∀ j ∈ o, Textual depth j) : entryMarks gap (k, o) = entryCost (k, o) := by
  cases o with
  | none => rfl
  | some j => rw [entryMarks, entryCost, marks_rawText hgap (h j rfl)]

theorem textual_listValue {items : List Json} (h : ∀ j ∈ items, Textual depth j) :
    Textual (depth + 1) (listValue items) := by
  match items with
  | [] => exact h
  | [j] => exact ((h j (List.mem_cons_self ..)).mono (Nat.le_succ depth)).1
  | _ :: _ :: _ => exact h

theorem marks_listValue (hgap : ∀ c ∈ gap, isSpace c = true) (items : List Json) :
    marks (rawText gap (listValue items)) = (items.map fun j => marks (rawText gap j)).sum := by
  match items with
  | [] => rfl
  | [j] => simp [listValue]
  | _ :: _ :: _ => exact marks_rawText_arr hgap _

theorem cost_listValue (items : List Json) : cost (listValue items) = (items.map cost).sum := by
  match items with
  | [] => rfl
  | [j] => simp [listValue]
  | _ :: _ :: _ => exact itemsCost_eq_sum _

/-- An object keeps the members of a table, each under its name. -/
theorem keeps_present {table' : List (GoString × Option Json)}
    (hnodup : (table'.map Prod.fst).Nodup)
    (h : ∀ p ∈ table, ∀ j ∈ p.2, ∃ j', (p.1, some j') ∈ table' ∧ (j = .null ∨ Keeps depth j j')) :
    Keeps (depth + 1) (.obj (present table)) (.obj (present table')) := by
  refine .inl ⟨present table', rfl, fun p hp => ?_⟩
  obtain ⟨j', hmem, hkeeps⟩ := h _ (mem_present.mp hp) _ rfl
  have hpresent : (p.1, j') ∈ present table' := mem_present.mpr hmem
  exact ⟨j', lastMember_of_nodup ((names_present table').nodup hnodup) hpresent, hkeeps⟩

/-- Two objects with the same meaning have the same values under each name. -/
theorem lookup_canon {table' : List (GoString × Option Json)}
    (hnodup : (table.map Prod.fst).Nodup) (hnodup' : (table'.map Prod.fst).Nodup)
    (h : canon (.obj (present table)) = canon (.obj (present table'))) (k : GoString) :
    ((table.lookup k).join).map canon = ((table'.lookup k).join).map canon := by
  rw [← get_present hnodup, ← get_present hnodup', Json.obj.inj h]

/-- What json.Unmarshal puts into a map, as a value that the text means. -/
theorem unmarshalMap_eq_some_iff {s : GoString} {m : GoMap Json} (hne : m ≠ []) :
    unmarshalMap s = some m ↔ (parseText s).map canon = some (.obj m) := by
  unfold unmarshalMap
  cases parseText s with
  | none => simp
  | some v =>
    cases v with
    | obj members => simp [canon]
    | null => simpa [canon] using hne.symm
    | _ => simp [canon]

end Tables

end VissServer.Go
