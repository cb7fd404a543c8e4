import VissServer.Go.JsonSplice

/-!
Maps that are decoded from a text, changed, printed and decoded again: which values they
hold in the end.
-/
namespace VissServer.Go

namespace GoMap

variable {α : Type*}

/-- The keys increase, as in every map that the assignments make. -/
def Sorted (m : GoMap α) : Prop := m.Pairwise fun p q => p.1 < q.1

theorem Sorted.set {m : GoMap α} (hm : m.Sorted) (k : GoString) (v : α) : (m.set k v).Sorted := by
  induction m with
  | nil => exact List.pairwise_singleton _ _
  | cons q rest ih =>
    obtain ⟨k₁, v₁⟩ := q
    obtain ⟨hhead, hrest⟩ := List.pairwise_cons.mp hm
    rw [GoMap.set]
    split
    · next hk =>
      subst hk
      exact List.pairwise_cons.mpr ⟨hhead, hrest⟩
    · next hk =>
      split
      · next hlt =>
        refine List.pairwise_cons.mpr ⟨fun p hp => ?_, hm⟩
        rcases List.mem_cons.mp hp with rfl | hp
        · exact hlt
        · exact List.lt_trans hlt (hhead p hp)
      · next hlt =>
        have hgt : k₁ < k := Std.lt_of_le_of_ne hlt (Ne.symm hk)
        refine List.pairwise_cons.mpr ⟨fun p hp => ?_, ih hrest⟩
        rcases mem_set hp with rfl | hp
        · exact hgt
        · exact hhead p hp

theorem Sorted.delete {m : GoMap α} (hm : m.Sorted) (k : GoString) : (m.delete k).Sorted :=
  hm.sublist List.filter_sublist

theorem sorted_ofMembers (members : List (GoString × α)) : (ofMembers members).Sorted := by
  induction members using List.reverseRecOn with
  | nil => exact .nil
  | append_singleton members p ih =>
    rw [ofMembers_concat]
    exact ih.set p.1 p.2

theorem Sorted.get_of_mem {m : GoMap α} (hm : m.Sorted) {p : GoString × α} (h : p ∈ m) :
    m.get p.1 = some p.2 := by
  induction m with
  | nil => simp at h
  | cons q rest ih =>
    obtain ⟨k, v⟩ := q
    obtain ⟨hhead, hrest⟩ := List.pairwise_cons.mp hm
    rw [get, lookup_cons_if]
    rcases List.mem_cons.mp h with rfl | h
    · rw [if_pos rfl]
    · rw [if_neg fun heq => List.lt_irrefl _ (heq ▸ hhead p h)]
      exact ih hrest h

theorem get_delete (m : GoMap α) (k k' : GoString) :
    (m.delete k).get k' = if k' = k then none else m.get k' := by
  unfold delete get
  induction m with
  | nil => simp
  | cons p rest ih =>
    obtain ⟨k₁, v₁⟩ := p
    by_cases hk : k₁ = k
    · rw [List.filter_cons_of_neg (by simpa using hk), ih, lookup_cons_if, hk]
      split <;> rfl
    · rw [List.filter_cons_of_pos (by simpa using hk), lookup_cons_if, lookup_cons_if, ih]
      by_cases hk' : k' = k₁
      · rw [if_pos hk', if_pos hk', if_neg (hk' ▸ hk)]
      · rw [if_neg hk', if_neg hk']

/-- No member of a sorted map stands behind another with its key. -/
theorem Sorted.lookup_reverse {m : GoMap α} (hm : m.Sorted) (k : GoString) :
    m.reverse.lookup k = m.get k := by
  unfold get
  induction m with
  | nil => rfl
  | cons p rest ih =>
    obtain ⟨k₁, v₁⟩ := p
    obtain ⟨hhead, hrest⟩ := List.pairwise_cons.mp hm
    rw [List.reverse_cons, List.lookup_append, ih hrest, lookup_cons_if, lookup_cons_if]
    by_cases hk : k = k₁
    · have hnone : rest.lookup k = none := by
        refine List.lookup_eq_none_iff.mpr fun q hq => bne_iff_ne.mpr ?_
        intro heq
        have hlt := hhead q hq
        dsimp only at hlt
        rw [← heq, hk] at hlt
        exact List.lt_irrefl _ hlt
      rw [hnone, if_pos hk, if_pos hk, Option.none_or]
    · rw [if_neg hk, if_neg hk]
      exact Option.or_none

/-- A key below all keys of a map is not in it. -/
theorem get_eq_none_of_lt {m : GoMap α} {k : GoString} (h : ∀ p ∈ m, k < p.1) : m.get k = none := by
  refine List.lookup_eq_none_iff.mpr fun p hp => bne_iff_ne.mpr ?_
  rintro rfl
  exact List.lt_irrefl _ (h p hp)

/-- The first key of a map is not below all keys of a map with the same lookups. -/
theorem not_below_of_get_eq {rest m' : GoMap α} {k : GoString} {v : α}
    (h : get ((k, v) :: rest) k = get m' k) : ¬ ∀ p ∈ m', k < p.1 := by
  intro hbelow
  rw [get_eq_none_of_lt hbelow, get, lookup_cons_if, if_pos rfl] at h
  simp at h

/-- Sorted maps are told by their lookups. -/
theorem Sorted.ext {m m' : GoMap α} (hm : m.Sorted) (hm' : m'.Sorted)
    (h : ∀ k, m.get k = m'.get k) : m = m' := by
  induction m generalizing m' with
  | nil =>
    cases m' with
    | nil => rfl
    | cons q rest' => exact absurd (by simp) (not_below_of_get_eq (h q.1).symm)
  | cons p rest ih =>
    obtain ⟨k, v⟩ := p
    obtain ⟨hhead, hrest⟩ := List.pairwise_cons.mp hm
    cases m' with
    | nil => exact absurd (by simp) (not_below_of_get_eq (h k))
    | cons q rest' =>
      obtain ⟨k', v'⟩ := q
      obtain ⟨hhead', hrest'⟩ := List.pairwise_cons.mp hm'
      have hkey : k = k' := by
        rcases Std.lt_trichotomy k k' with hlt | heq | hlt
        · refine absurd (fun p hp => ?_) (not_below_of_get_eq (h k))
          rcases List.mem_cons.mp hp with rfl | hp
          · exact hlt
          · exact List.lt_trans hlt (hhead' p hp)
        · exact heq
        · refine absurd (fun p hp => ?_) (not_below_of_get_eq (h k').symm)
          rcases List.mem_cons.mp hp with rfl | hp
          · exact hlt
          · exact List.lt_trans hlt (hhead p hp)
      subst hkey
      have hvalue := h k
      rw [get, get, lookup_cons_if, lookup_cons_if, if_pos rfl, if_pos rfl] at hvalue
      obtain rfl := Option.some.inj hvalue
      rw [ih hrest hrest' fun j => ?_]
      have hj := h j
      rw [get, get, lookup_cons_if, lookup_cons_if] at hj
      by_cases hjk : j = k
      · rw [hjk, get_eq_none_of_lt hhead, get_eq_none_of_lt hhead']
      · rwa [if_neg hjk, if_neg hjk] at hj

end GoMap

theorem valueAt_set (m : GoMap Json) (k k' : GoString) (v : Json) :
    valueAt (m.set k v) k' = if k' = k then v else valueAt m k' := by
  unfold valueAt
  rw [GoMap.get_set]
  split <;> rfl

theorem valueAt_delete (m : GoMap Json) (k k' : GoString) :
    valueAt (m.delete k) k' = if k' = k then .null else valueAt m k' := by
  unfold valueAt
  rw [GoMap.get_delete]
  split <;> rfl

/-- A map whose text is read back with the same keys. -/
structure PrintableMap (m : GoMap Json) : Prop where
  sorted : m.Sorted
  keys : ∀ p ∈ m, ValidString p.1
  values : ∀ p ∈ m, Printable (maxNestingDepth - 1) p.2

theorem PrintableMap.set {m : GoMap Json} (hm : PrintableMap m) {k : GoString} {v : Json}
    (hk : ValidString k) (hv : Printable (maxNestingDepth - 1) v) : PrintableMap (m.set k v) where
  sorted := hm.sorted.set k v
  keys p hp := by
    rcases GoMap.mem_set hp with rfl | hp
    · exact hk
    · exact hm.keys p hp
  values p hp := by
    rcases GoMap.mem_set hp with rfl | hp
    · exact hv
    · exact hm.values p hp

theorem PrintableMap.delete {m : GoMap Json} (hm : PrintableMap m) (k : GoString) :
    PrintableMap (m.delete k) where
  sorted := hm.sorted.delete k
  keys p hp := hm.keys p (List.mem_of_mem_filter hp)
  values p hp := hm.values p (List.mem_of_mem_filter hp)

/-- The values of a decoded map are well formed. -/
theorem decodeMap_wellFormed {s : GoString} {m : GoMap Json} (h : decodeMap s = some m) :
    m.Sorted ∧ ∀ p ∈ m, ValidString p.1 ∧ WellFormed (maxNestingDepth - 1) p.2 := by
  unfold decodeMap at h
  split at h
  · next members rest hparse =>
    obtain rfl := Option.some.inj h
    have hwell : WellFormed maxNestingDepth (.obj members) := parseValue_wellFormed hparse
    have hcanon := hwell.canon
    rw [show maxNestingDepth = (maxNestingDepth - 1) + 1 from rfl] at hcanon
    exact ⟨GoMap.sorted_ofMembers _, hcanon⟩
  · obtain rfl := Option.some.inj h
    exact ⟨.nil, by simp⟩
  · simp at h

theorem decodeMap_printableMap {s : GoString} {m : GoMap Json} (h : decodeMap s = some m) :
    PrintableMap m := by
  obtain ⟨hsorted, hmembers⟩ := decodeMap_wellFormed h
  exact ⟨hsorted, fun p hp => (hmembers p hp).1, fun p hp => (hmembers p hp).2.printable⟩

theorem valueAt_mem {m : GoMap Json} {k : GoString} (h : valueAt m k ≠ .null) :
    (k, valueAt m k) ∈ m := by
  cases hget : m.get k with
  | none => simp [valueAt, hget] at h
  | some v =>
    obtain ⟨before, after, hm, -⟩ := List.lookup_eq_some_iff.mp hget
    rw [valueAt, hget, Option.getD_some, hm]
    simp

theorem decodeMap_sanitize {s : GoString} {m : GoMap Json} (h : decodeMap s = some m)
    (k : GoString) : sanitize (valueAt m k) = valueAt m k := by
  by_cases hnull : valueAt m k = .null
  · rw [hnull]
    rfl
  · exact ((decodeMap_wellFormed h).2 _ (valueAt_mem hnull)).2.sanitize

theorem lookup_sanitizeMembers {members : List (GoString × Json)}
    (h : ∀ p ∈ members, ValidString p.1) (k : GoString) :
    (sanitizeMembers members).lookup k = (members.lookup k).map sanitize := by
  induction members with
  | nil => rfl
  | cons p members ih =>
    obtain ⟨k₁, v₁⟩ := p
    obtain ⟨hk₁, hmembers⟩ := List.forall_mem_cons.mp h
    rw [sanitizeMembers, hk₁.sanitize, GoMap.lookup_cons_if, GoMap.lookup_cons_if, ih hmembers]
    split <;> rfl

theorem sanitizeMembers_eq_map (members : List (GoString × Json)) :
    sanitizeMembers members = members.map fun p => (sanitizeString p.1, sanitize p.2) := by
  induction members with
  | nil => rfl
  | cons p members ih =>
    obtain ⟨k, v⟩ := p
    rw [sanitizeMembers, ih, List.map_cons]

/-- The value that is kept of what a sorted map is printed as. -/
theorem GoMap.Sorted.lastMember_sanitize {m : GoMap Json} (hm : m.Sorted)
    (hkeys : ∀ p ∈ m, ValidString p.1) (k : GoString) :
    lastMember (sanitizeMembers m) k = (m.get k).map sanitize := by
  have hreverse : (sanitizeMembers m).reverse = sanitizeMembers m.reverse := by
    rw [sanitizeMembers_eq_map, sanitizeMembers_eq_map, List.map_reverse]
  rw [lastMember, hreverse, lookup_sanitizeMembers fun p hp => hkeys p (List.mem_reverse.mp hp),
    hm.lookup_reverse]

/-- What is decoded from the text of a map holds the decoded values of the map. -/
theorem PrintableMap.decode_marshal {m : GoMap Json} (hm : PrintableMap m) :
    ∃ m', decodeMap (marshal (.obj m)) = some m' ∧
      ∀ k, valueAt m' k = canon (sanitize (valueAt m k)) := by
  have hprintable : Printable maxNestingDepth (.obj m) := hm.values
  have hspace := skipSpace_marshal hprintable []
  have hread := parseValue_marshal hprintable (notHead_nil (p := continuesNumber))
  rw [List.append_nil] at hspace hread
  refine ⟨GoMap.ofMembers (canonMembers (sanitizeMembers m)), ?_, fun k => ?_⟩
  · rw [decodeMap, parseFirst, hspace, hread, sanitize]
  · rw [valueAt_ofMembers, hm.sorted.lastMember_sanitize hm.keys, valueAt]
    cases m.get k <;> rfl

/-- A string at a key is read back, and only a string is read back as one. -/
theorem PrintableMap.str_decode_marshal {m m' : GoMap Json} (hm : PrintableMap m)
    (h : decodeMap (marshal (.obj m)) = some m') {k : GoString}
    (hk : sanitize (valueAt m k) = valueAt m k) (v : GoString) :
    valueAt m' k = .str v ↔ valueAt m k = .str v := by
  obtain ⟨m'', hdecode, hvalue⟩ := hm.decode_marshal
  obtain rfl := Option.some.inj (hdecode.symm.trans h)
  rw [hvalue, hk, canon_eq_str]

end VissServer.Go
