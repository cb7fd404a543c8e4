import VissServer.Go.Slices

/-!
Where a text is found first in one that is put together of parts. A byte that is not in the
text keeps the parts apart.
-/
namespace VissServer.Go

section

variable {c : UInt8} {sub s : GoString}

theorem isPrefixOf_separated (hc : c ∉ sub) (x y : GoString) :
    sub.isPrefixOf (x ++ c :: y) = sub.isPrefixOf x := by
  induction x generalizing sub with
  | nil =>
    cases sub with
    | nil => rfl
    | cons d sub =>
      have hne : (d == c) = false :=
        beq_eq_false_iff_ne.mpr fun heq => hc (heq ▸ List.mem_cons_self)
      rw [List.nil_append, List.isPrefixOf_cons_cons, hne, Bool.false_and]
      rfl
  | cons e x ih =>
    cases sub with
    | nil => rfl
    | cons d sub =>
      rw [List.cons_append, List.isPrefixOf_cons_cons, List.isPrefixOf_cons_cons,
        ih fun hmem => hc (List.mem_cons_of_mem d hmem)]

/-- A text is found before the byte that it does not have, or else behind it. -/
theorem index?_separated (hc : c ∉ sub) (hsub : sub ≠ []) (x y : GoString) :
    index? sub (x ++ c :: y) = (index? sub x).or ((index? sub y).map (· + (x.length + 1))) := by
  induction x with
  | nil =>
    have hstart : sub.isPrefixOf (c :: y) = false := by
      have heq := isPrefixOf_separated hc [] y
      rw [List.nil_append] at heq
      rw [heq, Bool.eq_false_iff, ne_eq, List.isPrefixOf_iff_prefix, List.prefix_nil]
      exact hsub
    simp [index?, hstart, hsub]
  | cons d x ih =>
    have hstart := isPrefixOf_separated hc (d :: x) y
    rw [List.cons_append] at hstart
    rw [List.cons_append, index?, index?, hstart, ih]
    split
    · rfl
    · cases index? sub x with
      | some i => rfl
      | none =>
        simp only [Option.none_or, Option.map_none, Option.map_map, List.length_cons]
        congr 1

theorem contains_separated (hc : c ∉ sub) (hsub : sub ≠ []) (x y : GoString) :
    contains (x ++ c :: y) sub = (contains x sub || contains y sub) := by
  rw [contains, index?_separated hc hsub, Option.isSome_or, Option.isSome_map]
  rfl

theorem index?_eq_none_of_notMem (hc : c ∈ sub) (h : c ∉ s) : index? sub s = none := by
  induction s with
  | nil => simp [index?, List.ne_nil_of_mem hc]
  | cons d s ih =>
    have hstart : ¬ sub.isPrefixOf (d :: s) = true := by
      rw [List.isPrefixOf_iff_prefix]
      exact fun hstart => h (hstart.subset hc)
    rw [index?, if_neg hstart, ih fun hmem => h (List.mem_cons_of_mem d hmem)]
    rfl

/-- The text stands where it is found. -/
theorem index?_split {i : ℕ} (h : index? sub s = some i) :
    ∃ front rest, s = front ++ (sub ++ rest) ∧ front.length = i := by
  induction s generalizing i with
  | nil =>
    rw [index?] at h
    split at h
    · next hsub =>
      subst hsub
      exact ⟨[], [], rfl, Option.some.inj h⟩
    · simp at h
  | cons d s ih =>
    rw [index?] at h
    split at h
    · next hstart =>
      obtain ⟨rest, hrest⟩ := List.isPrefixOf_iff_prefix.mp hstart
      exact ⟨[], rest, hrest.symm, Option.some.inj h⟩
    · obtain ⟨j, hj, rfl⟩ := Option.map_eq_some_iff.mp h
      obtain ⟨front, rest, rfl, rfl⟩ := ih hj
      exact ⟨d :: front, rest, rfl, rfl⟩

theorem splitByte_of_notMem (h : c ∉ s) : splitByte c s = [s] := by
  induction s with
  | nil => rfl
  | cons d s ih =>
    have hne := List.ne_of_not_mem_cons h
    rw [splitByte, if_neg (Ne.symm hne), ih (List.not_mem_of_not_mem_cons h)]

theorem splitByte_append (h : c ∉ s) (rest : GoString) :
    splitByte c (s ++ c :: rest) = s :: splitByte c rest := by
  induction s with
  | nil => rw [List.nil_append, splitByte, if_pos rfl]
  | cons d s ih =>
    have hne := List.ne_of_not_mem_cons h
    rw [List.cons_append, splitByte, if_neg (Ne.symm hne), ih (List.not_mem_of_not_mem_cons h)]

end

end VissServer.Go
