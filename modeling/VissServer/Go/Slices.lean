import VissServer.Go.Strings

/-!
Where a byte is found in a string, and which index and slice expressions stay in the bounds.
-/
namespace VissServer.Go

theorem index?_byte (c : UInt8) (s : GoString) :
    index? [c] s = if c ∈ s then some (s.takeWhile fun d => d ≠ c).length else none := by
  induction s with
  | nil => simp [index?]
  | cons d s ih =>
    by_cases hc : d = c
    · subst hc
      simp [index?]
    · have hprefix : ¬ [c].isPrefixOf (d :: s) = true := by simpa using Ne.symm hc
      rw [index?, if_neg hprefix, ih]
      by_cases hmem : c ∈ s
      · simp [hmem, hc]
      · simp [hmem, Ne.symm hc]

theorem index_byte_append {c : UInt8} {front : GoString} (h : c ∉ front) (rest : GoString) :
    index (front ++ c :: rest) [c] = front.length := by
  have hfront : ∀ d ∈ front, decide (d ≠ c) = true := by
    intro d hd
    have hne : d ≠ c := fun heq => h (heq ▸ hd)
    simpa using hne
  have hindex : index? [c] (front ++ c :: rest) = some front.length := by
    rw [index?_byte, if_pos (by simp), List.takeWhile_append_of_pos hfront,
      List.takeWhile_cons_of_neg (by simp), List.append_nil]
  rw [index, hindex]

/-- A text is found behind one without its first byte. -/
theorem index?_append {c : UInt8} {front : GoString} (h : c ∉ front) (sub rest : GoString) :
    index? (c :: sub) (front ++ (c :: sub ++ rest)) = some front.length := by
  induction front with
  | nil => simp [index?]
  | cons d front ih =>
    have hne : c ≠ d := fun heq => h (heq ▸ List.mem_cons_self)
    have hrest := ih fun hmem => h (List.mem_cons_of_mem d hmem)
    have hprefix : ¬ (c :: sub).isPrefixOf (d :: (front ++ (c :: sub ++ rest))) = true := by
      simp [hne]
    rw [List.cons_append, index?, if_neg hprefix, hrest]
    rfl

theorem index_byte_of_notMem {c : UInt8} {s : GoString} (h : c ∉ s) : index s [c] = -1 := by
  rw [index, index?_byte, if_neg h]

/-- The first occurrence of a byte cuts a string in two. -/
theorem exists_cut {c : UInt8} {s : GoString} (h : 0 < s.count c) :
    ∃ front rest, s = front ++ c :: rest ∧ c ∉ front ∧ rest.count c + 1 = s.count c := by
  obtain ⟨front, rest, hs, hfront⟩ := List.eq_append_cons_of_mem (List.count_pos_iff.mp h)
  refine ⟨front, rest, hs, hfront, ?_⟩
  rw [hs, List.count_append, List.count_eq_zero_of_not_mem hfront, List.count_cons_self]
  omega

theorem sliceFrom_isSome_iff {s : GoString} {low : ℤ} :
    (sliceFrom s low).isSome ↔ 0 ≤ low ∧ low ≤ s.length := by
  unfold sliceFrom slice
  split
  · next h => simpa using ⟨h.1, h.2.1⟩
  · next h =>
    simp only [Option.isSome_none, Bool.false_eq_true, false_iff]
    omega

/-- What is behind the first occurrence of a byte. -/
theorem sliceFrom_cut (front rest : GoString) (c : UInt8) :
    sliceFrom (front ++ c :: rest) (front.length + 1) = some rest := by
  have hdrop : ((front.length : ℤ) + 1).toNat = (front ++ [c]).length := by
    rw [List.length_append, List.length_singleton]
    omega
  have hs : front ++ c :: rest = front ++ [c] ++ rest := by simp
  rw [sliceFrom, slice, if_pos (by simp; omega), Int.toNat_natCast, List.take_length, hdrop, hs,
    List.drop_left]

theorem index_ne_iff {s sub : GoString} : index s sub ≠ -1 ↔ contains s sub = true := by
  unfold index contains
  cases index? sub s with
  | none => simp
  | some i =>
    simp only [ne_eq, Option.isSome_some, iff_true]
    omega

/-- A slice without the last byte. -/
theorem slice_init (s : GoString) (c : UInt8) :
    slice (s ++ [c]) 0 ((s ++ [c]).length - 1) = some s := by
  have hlength : (((s ++ [c]).length : ℕ) : ℤ) - 1 = s.length := by
    rw [List.length_append, List.length_singleton]
    omega
  rw [hlength, slice, if_pos, Int.toNat_natCast, List.take_left]
  · rfl
  · refine ⟨le_rfl, by omega, ?_⟩
    rw [List.length_append]
    omega

theorem slice_isSome_iff {s : GoString} {low high : ℤ} :
    (slice s low high).isSome ↔ 0 ≤ low ∧ low ≤ high ∧ high ≤ s.length := by
  unfold slice
  split
  · next h => simpa using h
  · next h => simpa using h

theorem slice_append {s : GoString} (front : GoString) {mid : GoString} (rest : GoString)
    {low high : ℤ} (hs : s = front ++ mid ++ rest) (hlow : low = front.length)
    (hhigh : high = low + mid.length) : slice s low high = some mid := by
  have hlength : s.length = front.length + mid.length + rest.length := by
    rw [hs, List.length_append, List.length_append]
  have htake : high.toNat = (front ++ mid).length := by
    rw [List.length_append]
    omega
  have hdrop : low.toNat = front.length := by omega
  rw [slice, if_pos (by omega), htake, hdrop, hs, List.take_left, List.drop_left]

/-- A comma and a space that are cut off. -/
theorem slice_trailing (front : GoString) {s : GoString} (h : s = front ++ [44, 32]) :
    slice s 0 (s.length - 2) = some front := by
  refine slice_append [] [44, 32] h rfl ?_
  have hlength := congrArg List.length h
  simp only [List.length_append, List.length_cons, List.length_nil] at hlength
  omega

theorem sliceFrom_append (front rest : GoString) : sliceFrom (front ++ rest) front.length = some rest :=
  slice_append front [] (by rw [List.append_nil]) rfl (by rw [List.length_append]; omega)

/-- A slice that begins behind the front of a string. -/
theorem sliceFrom_length_add (front rest : GoString) {i : ℤ} (hi : 0 ≤ i) :
    sliceFrom (front ++ rest) (front.length + i) = sliceFrom rest i := by
  have hlength : ((front ++ rest).length : ℤ) = front.length + rest.length := by
    rw [List.length_append]
    omega
  by_cases hle : i ≤ rest.length
  · obtain ⟨n, rfl⟩ := Int.eq_ofNat_of_zero_le hi
    have hsplit : rest = rest.take n ++ rest.drop n := (List.take_append_drop n rest).symm
    have hn : (rest.take n).length = n := by
      rw [List.length_take]
      omega
    have hrest := sliceFrom_append (rest.take n) (rest.drop n)
    have hwhole := sliceFrom_append (front ++ rest.take n) (rest.drop n)
    rw [List.append_assoc, ← hsplit, List.length_append, hn] at hwhole
    rw [← hsplit, hn] at hrest
    rw [hrest]
    exact_mod_cast hwhole
  · have hwhole := mt sliceFrom_isSome_iff.mp
      (show ¬ (0 ≤ (front.length : ℤ) + i ∧ front.length + i ≤ (front ++ rest).length) by omega)
    have hrest := mt sliceFrom_isSome_iff.mp (show ¬ (0 ≤ i ∧ i ≤ rest.length) by omega)
    rw [Option.not_isSome_iff_eq_none] at hwhole hrest
    rw [hwhole, hrest]

theorem byteAt_append (front rest : GoString) (j : ℕ) :
    byteAt (front ++ rest) ((front.length : ℤ) + j) = rest[j]? := by
  have hindex : ((front.length : ℤ) + j).toNat = front.length + j := by omega
  rw [byteAt, if_pos (by omega), hindex, List.getElem?_append_right (by omega)]
  congr 1
  omega

end VissServer.Go
