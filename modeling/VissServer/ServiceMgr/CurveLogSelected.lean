import VissServer.Library.Traversals
import VissServer.ServiceMgr.CurveLogTermination

/-!
What the analysis of one signal selects: distinct samples between the ends of the buffer that
cover it, in the order in which they were captured.
-/
namespace VissServer.ServiceMgr.CurveLog

open Go Polylines Splitting

/-- The datapoints that are emitted for the saved indices, or for the index of the latest sample
where none is saved: in the order of capture, in which indices go down, and the index of the
newest one. -/
def Emitted (r : RingBuffer) (saved : List ℕ) (data : List RingElement) (lastSelected : ℕ)
    (order : List ℕ) : Prop :=
  order.Perm (if saved = [] then [0] else saved) ∧ order.Pairwise (· > ·) ∧
    data.map some = order.map (fun k : ℕ => readRing r k) ∧ order.getLast? = some lastSelected

section Selected

variable {n : Numbers} {r : RingBuffer} {tsBase : ℤ}

theorem readRing_of_transformAll (indices : List ℕ) {clBuffer : List CLBufElement}
    (h : transformAll n r tsBase indices = some (some clBuffer)) :
    ∀ k ∈ indices, (readRing r k).isSome := by
  induction indices generalizing clBuffer with
  | nil => exact nofun
  | cons k indices ih =>
    unfold transformAll transformDataPoint at h
    cases hread : readRing r k with
    | none =>
      rw [hread] at h
      exact nomatch h
    | some dp =>
      rw [hread] at h
      simp only [Option.map_some, Option.bind_eq_bind, Option.bind_some] at h
      by_cases hstatus : (transform n dp tsBase).2 = true
      · rw [if_pos hstatus] at h
        simp only [Option.bind_eq_some_iff, Option.some.injEq, Option.map_eq_some_iff] at h
        obtain ⟨rest, hrest, clBuffer', rfl, -⟩ := h
        refine List.forall_mem_cons.mpr ⟨?_, ih hrest⟩
        rw [hread]
        rfl
      · rw [if_neg hstatus] at h
        exact nomatch h

theorem readRing_of_transformDataPoints {size : ℕ} {clBuffer : List CLBufElement}
    (h : transformDataPoints n r size = some (some clBuffer)) {k : ℕ} (hk : k < size) :
    (readRing r k).isSome := by
  unfold transformDataPoints at h
  simp only [Option.bind_eq_bind, Option.bind_eq_some_iff] at h
  obtain ⟨first, -, hall⟩ := h
  exact readRing_of_transformAll _ hall k (List.mem_range.mpr hk)

/-- The analysis emits what the reduction saves. -/
theorem clAnalyze1dim_emits {size : ℕ} {clBuffer : List CLBufElement} {maxError : Float64}
    {saved : List ℕ} (hpos : 0 < size)
    (htransform : transformDataPoints n r size = some (some clBuffer))
    (hsaved : clReduction1Dim clBuffer maxError size 0 (size - 1) = some saved) :
    ∃ data lastSelected firstSelected order,
      clAnalyze1dim n r size maxError = some (data, lastSelected, firstSelected) ∧
      Emitted r saved data lastSelected order := by
  have hread : ∀ k, k < size → (readRing r k).isSome :=
    fun k hk => readRing_of_transformDataPoints htransform hk
  have hdistinct := hsaved
  rw [clReduction1Dim_eq] at hdistinct
  obtain ⟨hnodup, hinside⟩ := split_distinct (splitIndex_within _ _) hdistinct
  have hperm := List.perm_insertionSort (· ≥ ·) saved
  have hsorted := List.pairwise_insertionSort (· ≥ ·) saved
  unfold clAnalyze1dim
  simp only [htransform, Option.bind_eq_bind, Option.bind_some, Option.getD_some, hsaved]
  cases hsort : saved.insertionSort (· ≥ ·) with
  | nil =>
    rw [hsort] at hperm
    obtain ⟨dp, hdp⟩ := Option.isSome_iff_exists.mp (hread 0 hpos)
    rw [Nat.cast_zero] at hdp
    refine ⟨[dp], 0, 0, [0], by simp [hdp], ?_, List.pairwise_singleton _ _, ?_, rfl⟩
    · rw [if_pos (List.nil_perm.mp hperm)]
    · simp [hdp]
  | cons firstSelected rest =>
    rw [hsort] at hperm hsorted
    have hne : saved ≠ [] := by
      rintro rfl
      exact nomatch List.perm_nil.mp hperm
    have hreads : ∀ k ∈ firstSelected :: rest, (readRing r k).isSome := by
      intro k hk
      have hin := hinside k (hperm.mem_iff.mp hk)
      exact hread k (by omega)
    obtain ⟨data, hdata⟩ := Option.isSome_iff_exists.mp (Traversals.isSome_mapM_iff.mpr hreads)
    have hmap := Traversals.map_some_of_mapM hdata
    refine ⟨data, (firstSelected :: rest).getLast (List.cons_ne_nil _ _), firstSelected,
      firstSelected :: rest, by simp [hdata], ?_, ?_, hmap,
      List.getLast?_eq_some_getLast _⟩
    · rw [if_neg hne]
      exact hperm
    · have hdistinct := hperm.nodup_iff.mpr hnodup
      exact hsorted.imp₂ (fun a b hle hneq => lt_of_le_of_ne hle hneq.symm) hdistinct

end Selected

/-- In a buffer of numbers at strictly monotone times the reduction saves distinct indices
strictly inside, which with the ends cover it. The analysis emits the samples there in the order of
capture, which is that of their times if the times go up. -/
theorem selection_bounded {ε : ℚ} (hε : 0 ≤ ε) (ps : List (Point ℚ))
    (h : StrictlyMonotone (ps.map fun p => p.t)) :
    (∀ first last, first ≤ last → last < ps.length → ∃ saved,
      (∀ fuel, last - first ≤ fuel →
        clReduction1Dim (ps.map element) (.fin ε) fuel first last = some saved) ∧
      saved.Nodup ∧ (∀ k ∈ saved, first < k ∧ k < last) ∧
      Covers (pointAt ps) ε (withEnds saved first last)) ∧
    ∀ (n : Numbers) (r : RingBuffer), ps ≠ [] →
      transformDataPoints n r ps.length = some (some (ps.map element)) →
      ∃ saved data lastSelected firstSelected order,
        clReduction1Dim (ps.map element) (.fin ε) ps.length 0 (ps.length - 1) = some saved ∧
        clAnalyze1dim n r ps.length (.fin ε) = some (data, lastSelected, firstSelected) ∧
        Emitted r saved data lastSelected order ∧
        (ps.Pairwise (fun p q => q.t < p.t) →
          (order.map fun k => (pointAt ps k).t).Pairwise (· < ·)) := by
  have htimes : ∀ last, last < ps.length → ∀ i j, i < j → j ≤ last →
      (pointAt ps i).t ≠ (pointAt ps j).t :=
    fun last hlast i j hij hj => pointAt_t_ne h hij (hj.trans_lt hlast)
  constructor
  · intro first last hle hlast
    obtain ⟨saved, hsaved, hreduced⟩ := clReduction1Dim_spec hε (last - first) first last
      (buffers_pointAt hlast) (htimes last hlast) hle (le_refl _)
    have hsplit := hsaved
    rw [clReduction1Dim_eq] at hsplit
    refine ⟨saved, ?_, (split_distinct (splitIndex_within _ _) hsplit).1, hreduced.inside,
      hreduced.covers⟩
    intro fuel hfuel
    rw [clReduction1Dim_eq]
    exact split_enough (splitIndex_within _ _) hsplit hfuel
  · intro n r hne htransform
    have hpos : 0 < ps.length := List.length_pos_of_ne_nil hne
    obtain ⟨saved, hsaved, hreduced⟩ := clReduction1Dim_spec hε ps.length 0 (ps.length - 1)
      (buffers_pointAt (by omega)) (htimes _ (by omega)) (Nat.zero_le _) (by omega)
    obtain ⟨data, lastSelected, firstSelected, order, hanalyze, hemitted⟩ :=
      clAnalyze1dim_emits hpos htransform hsaved
    refine ⟨saved, data, lastSelected, firstSelected, order, hsaved, hanalyze, hemitted, ?_⟩
    intro hdown
    have hwithin : ∀ k ∈ order, k < ps.length := by
      intro k hk
      have hmem := hemitted.1.mem_iff.mp hk
      by_cases hnil : saved = []
      · rw [if_pos hnil, List.mem_singleton] at hmem
        omega
      · rw [if_neg hnil] at hmem
        have hin := hreduced.inside k hmem
        omega
    rw [List.pairwise_map]
    refine hemitted.2.1.imp_of_mem ?_
    intro i j hi hj hij
    have hlt := List.pairwise_iff_getElem.mp hdown j i (hwithin j hj) (hwithin i hi) hij
    have hget : ∀ k (hk : k < ps.length), pointAt ps k = ps[k] := by
      intro k hk
      rw [pointAt, List.getD_eq_getElem?_getD, List.getElem?_eq_getElem hk, Option.getD_some]
    rw [hget i (hwithin i hi), hget j (hwithin j hj)]
    exact hlt

theorem selection_bounded_peak :
    ∃ saved, (∀ fuel, 2 - 0 ≤ fuel →
        clReduction1Dim ([⟨2, 0⟩, ⟨1, 5⟩, ⟨0, 0⟩].map element) (.fin 1) fuel 0 2 = some saved) ∧
      saved.Nodup ∧ (∀ k ∈ saved, 0 < k ∧ k < 2) ∧
      Covers (pointAt [⟨2, 0⟩, ⟨1, 5⟩, ⟨0, 0⟩]) (1 : ℚ) (withEnds saved 0 2) :=
  (selection_bounded (by decide +kernel) [⟨2, 0⟩, ⟨1, 5⟩, ⟨0, 0⟩]
    (.inr (by decide +kernel))).1 0 2 (by decide) (by decide)

end VissServer.ServiceMgr.CurveLog
