import VissServer.Library.SpaceCurves
import VissServer.ServiceMgr.CurveLogCaptures
import VissServer.ServiceMgr.CurveLogError
import VissServer.ServiceMgr.CurveLogSelected

/-!
The curve of several signals that are captured together: how far its samples are from the chords
between two of them, and what the reductions and the analyses of two and of three signals leave
between the samples that they select.
-/
namespace VissServer.ServiceMgr.CurveLog

open Go Polylines Splitting Neighbours SpaceCurves

/-! ## The splits of a buffer -/

section Splits

variable {measuredError : ℕ → ℕ → ℕ → MayPanic Float64} {first last size : ℕ} {b : ℚ}

theorem foldl_exceed_fin (D : ℕ → ℚ) (l : List ℕ) (max : ℚ) (index : ℕ) :
    l.foldl (exceed fun i => Float64.fin (D i)) (.fin max, index) =
      (.fin (l.foldl (exceed D) (max, index)).1, (l.foldl (exceed D) (max, index)).2) := by
  induction l generalizing max index with
  | nil => rfl
  | cons e l ih =>
    rw [List.foldl_cons, List.foldl_cons, exceed, exceed]
    by_cases hlt : max < D e
    · rw [if_pos (Float64.fin_lt.mpr hlt), if_pos hlt]
      exact ih _ _
    · rw [if_neg fun h => hlt (Float64.fin_lt.mp h), if_neg hlt]
      exact ih _ _

/-- A part that is not split has no error beyond the bound. -/
theorem splitIndex_none_le {D : ℕ → ℚ} (hle : first ≤ last)
    (herror : ∀ i, first ≤ i → i ≤ last → measuredError first last i = some (.fin (D i)))
    (hb : 0 ≤ b) (h : splitIndex measuredError (.fin b) first last = some none) :
    ∀ i, first ≤ i → i ≤ last → D i ≤ b := by
  intro i hi hi'
  have hmem := (mem_part hle).mpr ⟨hi, hi'⟩
  rw [splitIndex_eq hle herror, largest, show (0 : Float64) = .fin 0 from rfl,
    foldl_exceed_fin] at h
  have hbound : ¬ b < ((List.range' first (last - first + 1)).foldl (exceed D) (0, first)).1 := by
    intro hlt
    rw [if_pos (Float64.fin_lt.mpr hlt)] at h
    cases h
  rcases foldl_exceed_first D (List.range' first (last - first + 1)) List.pairwise_lt_range'
    (0, first) with ⟨-, hall⟩ | ⟨peak, -, heq, -, hall, -⟩
  · exact (hall i hmem).trans hb
  · rw [heq] at hbound
    exact (hall i hmem).trans (not_lt.mp hbound)

end Splits

section Reduction

variable {d : ℕ} {measuredError : ℕ → ℕ → ℕ → MayPanic Float64} {y : Fin d → ℕ → Point ℚ}
  {ε : ℚ} {size : ℕ}

/-- The errors that a reduction of several signals measures are the squares of distances. -/
def Measures (measuredError : ℕ → ℕ → ℕ → MayPanic Float64) (y : Fin d → ℕ → Point ℚ)
    (size : ℕ) : Prop :=
  ∀ first last i, first < last → last < size → i ≤ last →
    measuredError first last i = some (.fin (squaredDistance y first last i))

/-- The indices that a reduction saves are strictly inside, and between them and the ends all
samples are near to the chords. -/
theorem reduction_spec (hmeasures : Measures measuredError y size)
    (hne : ∀ signal i j, i < j → j < size → (y signal i).t ≠ (y signal j).t) (hpos : 0 < size) :
    ∃ saved, split (splitIndex measuredError (.fin ε * .fin ε)) size 0 (size - 1) = some saved ∧
      saved.Nodup ∧ (∀ k ∈ saved, 0 < k ∧ k < size - 1) ∧
      Related (SpaceFits y ε) (between 0 (size - 1) saved) := by
  rw [Float64.fin_mul]
  have hbound : ¬ Float64.fin (ε * ε) < 0 := fun h =>
    absurd (Float64.fin_lt.mp h) (mul_self_nonneg ε).not_gt
  have hinside : ∀ a b, 1 < b - a → 0 ≤ a → b ≤ size - 1 →
      splitIndex measuredError (.fin (ε * ε)) a b = some none ∨
        ∃ middle, splitIndex measuredError (.fin (ε * ε)) a b = some (some middle) ∧
          a < middle ∧ middle < b := by
    intro a b hab _ hb
    have hzero : ¬ (0 : Float64) < .fin 0 := fun h => absurd (Float64.fin_lt.mp h) (lt_irrefl _)
    apply splitIndex_inside (by omega) hbound
      (fun i _ hi => hmeasures a b i (by omega) (by omega) hi)
    · rw [squaredDistance_left]
      exact hzero
    · rw [squaredDistance_right fun signal => hne signal a b (by omega) (by omega)]
      exact hzero
  obtain ⟨saved, hsaved⟩ :=
    split_total hinside (le_refl 0) (le_refl (size - 1)) (show size - 1 - 0 ≤ size by omega)
  obtain ⟨hnodup, hin⟩ := split_distinct (splitIndex_within _ _) hsaved
  refine ⟨saved, hsaved, hnodup, hin, ?_⟩
  refine (split_related (splitIndex_within _ _) hsaved (Nat.zero_le _)).mono ?_
  intro i _ j hj hij hwhole
  have hjsize : j < size := by
    rcases hj with rfl | rfl | hj
    · exact hpos
    · omega
    · have hj' := hin j hj
      omega
  rcases hwhole with hshort | hnone
  · exact spaceFits_short (fun signal => hne signal i j hij hjsize) hij hshort
  · intro k hik hkj
    rw [sq]
    exact splitIndex_none_le hij.le (fun i' _ hi' => hmeasures i j i' hij hjsize hi')
      (mul_self_nonneg ε) hnone k hik hkj

end Reduction

/-! ## The analyses -/

/-- Samples of several signals that were read together. -/
abbrev Row := List RingElement

/-- The samples of one of the signals. -/
def column (rows : List Row) (j : ℕ) : List RingElement :=
  rows.map fun row => row.getD j { value := [], timestamp := [] }

@[simp] theorem length_column (rows : List Row) (j : ℕ) : (column rows j).length = rows.length :=
  List.length_map _

theorem column_append (rows : List Row) (row : Row) (j : ℕ) :
    column (rows ++ [row]) j = column rows j ++ [row.getD j { value := [], timestamp := [] }] := by
  simp [column]

/-- The samples as points, by number. -/
def spacePoints (n : Numbers) (d : ℕ) (rows : List Row) : Fin d → ℕ → Point ℚ :=
  fun signal => points n (column rows signal)

/-- The samples as points, from the latest to the first. -/
def latestSpace (n : Numbers) (d : ℕ) (rows : List Row) : Fin d → ℕ → Point ℚ :=
  fun signal => latest n (column rows signal)

/-- The indices that an analysis of so many signals saves. -/
structure Selected (n : Numbers) (ε : ℚ) (d : ℕ) (rows : List Row) (size : ℕ)
    (saved : List ℕ) : Prop where
  nodup : saved.Nodup
  inside : ∀ k ∈ saved, 0 < k ∧ k < size - 1
  related : Related (SpaceFits (latestSpace n d rows) ε) (between 0 (size - 1) saved)

/-- The pack of an analysis holds the samples at the saved indices, for each signal. -/
def PackOf (rings : List RingBuffer) (saved : List ℕ) (pack : List CLPack) (updatedTail : ℕ)
    (order : List ℕ) : Prop :=
  pack.length = rings.length ∧ ∀ (j : ℕ) (r : RingBuffer) (p : CLPack), rings[j]? = some r →
    pack[j]? = some p → Emitted r saved p.data.dps updatedTail order

/-- What an analysis of full buffers gives. -/
structure SelectingAnalysis (n : Numbers) (ε : ℚ) (d : ℕ)
    (analysis : AnalysisDim Unit (List CLPack)) : Prop where
  spec : ∀ (rings : List RingBuffer) (rows : List Row) (size : ℕ) (now : ℕ → ℤ), rings.length = d →
    (∀ j r, rings[j]? = some r → Holds r (column rows j) ∧ (size : ℤ) ≤ r.bufSize) →
    (∀ j < d, Ordered n (column rows j)) → 0 < size → size ≤ rows.length →
    ∃ saved pack updatedTail order, analysis () rings size now = some ((), [pack], updatedTail) ∧
      Selected n ε d rows size saved ∧ PackOf rings saved pack updatedTail order

section Analyses

variable {n : Numbers} {r : RingBuffer} {rows : List Row} {saved : List ℕ} {size j : ℕ}

/-- Where no index is saved the latest sample is read. -/
def readIndices (saved : List ℕ) : List ℕ :=
  if saved = [] then [0] else saved.insertionSort (· ≥ ·)

theorem readSaved_emitted (hnodup : saved.Nodup)
    (hreads : ∀ k ∈ readIndices saved, (readRing r k).isSome) :
    ∃ data, readSaved r (saved.insertionSort (· ≥ ·)) = some data ∧
      Emitted r saved data ((saved.insertionSort (· ≥ ·)).getLastD 0) (readIndices saved) := by
  by_cases hnil : saved = []
  · subst hnil
    obtain ⟨dp, hdp⟩ := Option.isSome_iff_exists.mp (hreads 0 (by simp [readIndices]))
    rw [Nat.cast_zero] at hdp
    refine ⟨[dp], by rw [List.insertionSort_nil, readSaved, hdp]; rfl, ?_, ?_, ?_, rfl⟩
    · exact .refl _
    · exact List.pairwise_singleton _ _
    · simp [readIndices, hdp]
  · have hperm := List.perm_insertionSort (· ≥ ·) saved
    have hsorted := List.pairwise_insertionSort (· ≥ ·) saved
    have horder : readIndices saved = saved.insertionSort (· ≥ ·) := if_neg hnil
    rw [horder] at hreads ⊢
    have hne : saved.insertionSort (· ≥ ·) ≠ [] := by
      intro heq
      rw [heq] at hperm
      exact hnil (List.nil_perm.mp hperm)
    have hdistinct := hperm.nodup_iff.mpr hnodup
    obtain ⟨k, rest, hcons⟩ := List.exists_cons_of_ne_nil hne
    rw [hcons] at hreads hsorted hdistinct hperm ⊢
    obtain ⟨data, hdata⟩ := Option.isSome_iff_exists.mp (Traversals.isSome_mapM_iff.mpr hreads)
    refine ⟨data, hdata, ?_, ?_, Traversals.map_some_of_mapM hdata, ?_⟩
    · rw [if_neg hnil]
      exact hperm
    · exact hsorted.imp₂ (fun a b hle hneq => lt_of_le_of_ne hle hneq.symm) hdistinct
    · rw [List.getLast?_eq_some_getLast (List.cons_ne_nil k rest)]
      rfl

theorem Selected.reads {ε : ℚ} {d : ℕ} (h : Selected n ε d rows size saved)
    (hholds : Holds r (column rows j)) (hbuf : (size : ℤ) ≤ r.bufSize) (hpos : 0 < size)
    (hlength : size ≤ rows.length) : ∀ k ∈ readIndices saved, (readRing r k).isSome := by
  intro k hk
  have hsize : k < size := by
    unfold readIndices at hk
    split at hk
    · rw [List.mem_singleton] at hk
      omega
    · have hin := h.inside k ((List.mem_insertionSort (· ≥ ·)).mp hk)
      omega
  rw [readRing_latest hholds (by rw [length_column]; omega) (by omega)]
  rfl

end Analyses

/-- The buffers of one signal as points, whose times are shifted. -/
theorem buffers_latest {n : Numbers} {r : RingBuffer} {rows : List Row} {size j : ℕ}
    (hholds : Holds r (column rows j)) (hw : Ordered n (column rows j)) (hpos : 0 < size)
    (hbuf : (size : ℤ) ≤ r.bufSize) (hlength : size ≤ rows.length) :
    ∃ c clBuffer, transformDataPoints n r size = some (some clBuffer) ∧
      Buffers clBuffer (fun k => ⟨(latest n (column rows j) k).t - c,
        (latest n (column rows j) k).v⟩) (size - 1) :=
  transformDataPoints_eq hholds hw hpos hbuf (by rw [length_column]; exact hlength)

theorem latest_ne {n : Numbers} {rows : List Row} {size j : ℕ} (hw : Ordered n (column rows j))
    (hlength : size ≤ rows.length) {a b : ℕ} (hab : a < b) (hb : b < size) :
    (latest n (column rows j) a).t ≠ (latest n (column rows j) b).t := by
  have hlength' := length_column rows j
  exact (points_increasing hw (by omega) (by omega)).ne'

/-- The times that are counted from an instant of each signal differ as the times themselves. -/
theorem shifted_ne {d : ℕ} {y : Fin d → ℕ → Point ℚ} {size : ℕ}
    (hne : ∀ signal i j, i < j → j < size → (y signal i).t ≠ (y signal j).t) (c : Fin d → ℚ)
    (signal : Fin d) (i j : ℕ) (hij : i < j) (hj : j < size) :
    (y signal i).t - c signal ≠ (y signal j).t - c signal := by
  intro heq
  exact hne signal i j hij hj (sub_left_inj.mp heq)

/-- A reduction that measures the distances of the samples from some instants on. -/
theorem reduction_selected {n : Numbers} {ε : ℚ} {d size : ℕ} {rows : List Row}
    {measuredError : ℕ → ℕ → ℕ → MayPanic Float64} (c : Fin d → ℚ)
    (hmeasures : Measures measuredError (fun signal l => ⟨(latestSpace n d rows signal l).t -
      c signal, (latestSpace n d rows signal l).v⟩) size)
    (hordered : ∀ j < d, Ordered n (column rows j)) (hpos : 0 < size)
    (hlength : size ≤ rows.length) :
    ∃ saved, split (splitIndex measuredError (.fin ε * .fin ε)) size 0 (size - 1) = some saved ∧
      Selected n ε d rows size saved := by
  have hne : ∀ (signal : Fin d) i j, i < j → j < size →
      (latestSpace n d rows signal i).t ≠ (latestSpace n d rows signal j).t :=
    fun signal i j hij hj => latest_ne (hordered signal signal.isLt) hlength hij hj
  obtain ⟨saved, hsaved, hnodup, hinside, hrelated⟩ :=
    reduction_spec (ε := ε) hmeasures (shifted_ne hne c) hpos
  refine ⟨saved, hsaved, hnodup, hinside, hrelated.mono ?_⟩
  intro i _ j _ _ hfits k hik hkj
  have hnear := hfits k hik hkj
  rwa [squaredDistance_shift] at hnear

theorem analysis2dim_selecting (c : ClSession) (path2 : GoString) {ε : ℚ}
    (herror : c.maxError = .fin ε) :
    SelectingAnalysis c.numbers ε 2 (analysis2dim c path2) where
  spec := by
    intro rings rows size now hrings hholds hordered hpos hlength
    obtain ⟨r1, r2, rfl⟩ := List.length_eq_two.mp hrings
    obtain ⟨hholds1, hbuf1⟩ := hholds 0 r1 rfl
    obtain ⟨hholds2, hbuf2⟩ := hholds 1 r2 rfl
    have hw1 := hordered 0 (by omega)
    have hw2 := hordered 1 (by omega)
    obtain ⟨c1, clBuffer1, htransform1, hbuffers1⟩ :=
      buffers_latest hholds1 hw1 hpos hbuf1 hlength
    obtain ⟨c2, clBuffer2, htransform2, hbuffers2⟩ :=
      buffers_latest hholds2 hw2 hpos hbuf2 hlength
    have hmeasures : Measures (squaredError2Dim clBuffer1 clBuffer2) (fun signal l =>
        ⟨(latestSpace c.numbers 2 rows signal l).t - ![c1, c2] signal,
          (latestSpace c.numbers 2 rows signal l).v⟩) size := by
      intro first last i hlt hlast hi
      have hne1 := latest_ne hw1 hlength hlt hlast
      have hne2 := latest_ne hw2 hlength hlt hlast
      rw [squaredError2Dim,
        errorDim_point (fun k hk => hbuffers1 k (by omega)) hlt.le
          (fun h => hne1 (sub_left_inj.mp h)) hi,
        errorDim_point (fun k hk => hbuffers2 k (by omega)) hlt.le
          (fun h => hne2 (sub_left_inj.mp h)) hi]
      simp [squaredDistance, Fin.sum_univ_two, sq, latestSpace]
    obtain ⟨saved, hsaved, hselected⟩ :=
      reduction_selected (ε := ε) ![c1, c2] hmeasures hordered hpos hlength
    obtain ⟨data1, hdata1, hemitted1⟩ :=
      readSaved_emitted hselected.nodup (hselected.reads hholds1 hbuf1 hpos hlength)
    obtain ⟨data2, hdata2, hemitted2⟩ :=
      readSaved_emitted hselected.nodup (hselected.reads hholds2 hbuf2 hpos hlength)
    refine ⟨saved, [c.pack (.saved data1), { c with path := path2 }.pack (.saved data2)],
      (saved.insertionSort (· ≥ ·)).getLastD 0, readIndices saved, ?_, hselected, rfl, ?_⟩
    · unfold analysis2dim clAnalyze2dim
      simp only [htransform1, htransform2, Option.bind_eq_bind, Option.bind_some, Option.getD_some,
        clReduction2Dim, herror, hsaved, hdata1, hdata2]
    · intro j r p hr hp
      rcases j with _ | _ | j
      · obtain rfl := Option.some.inj hr
        obtain rfl := Option.some.inj hp
        exact hemitted1
      · obtain rfl := Option.some.inj hr
        obtain rfl := Option.some.inj hp
        exact hemitted2
      · simp at hr

theorem analysis3dim_selecting (c : ClSession) (path2 path3 : GoString) {ε : ℚ}
    (herror : c.maxError = .fin ε) :
    SelectingAnalysis c.numbers ε 3 (analysis3dim c path2 path3) where
  spec := by
    intro rings rows size now hrings hholds hordered hpos hlength
    obtain ⟨r1, r2, r3, rfl⟩ := List.length_eq_three.mp hrings
    obtain ⟨hholds1, hbuf1⟩ := hholds 0 r1 rfl
    obtain ⟨hholds2, hbuf2⟩ := hholds 1 r2 rfl
    obtain ⟨hholds3, hbuf3⟩ := hholds 2 r3 rfl
    have hw1 := hordered 0 (by omega)
    have hw2 := hordered 1 (by omega)
    have hw3 := hordered 2 (by omega)
    obtain ⟨c1, clBuffer1, htransform1, hbuffers1⟩ :=
      buffers_latest hholds1 hw1 hpos hbuf1 hlength
    obtain ⟨c2, clBuffer2, htransform2, hbuffers2⟩ :=
      buffers_latest hholds2 hw2 hpos hbuf2 hlength
    obtain ⟨c3, clBuffer3, htransform3, hbuffers3⟩ :=
      buffers_latest hholds3 hw3 hpos hbuf3 hlength
    have hmeasures : Measures (squaredError3Dim clBuffer1 clBuffer2 clBuffer3) (fun signal l =>
        ⟨(latestSpace c.numbers 3 rows signal l).t - ![c1, c2, c3] signal,
          (latestSpace c.numbers 3 rows signal l).v⟩) size := by
      intro first last i hlt hlast hi
      have hne1 := latest_ne hw1 hlength hlt hlast
      have hne2 := latest_ne hw2 hlength hlt hlast
      have hne3 := latest_ne hw3 hlength hlt hlast
      rw [squaredError3Dim,
        errorDim_point (fun k hk => hbuffers1 k (by omega)) hlt.le
          (fun h => hne1 (sub_left_inj.mp h)) hi,
        errorDim_point (fun k hk => hbuffers2 k (by omega)) hlt.le
          (fun h => hne2 (sub_left_inj.mp h)) hi,
        errorDim_point (fun k hk => hbuffers3 k (by omega)) hlt.le
          (fun h => hne3 (sub_left_inj.mp h)) hi]
      simp [squaredDistance, Fin.sum_univ_three, sq, latestSpace]
    obtain ⟨saved, hsaved, hselected⟩ :=
      reduction_selected (ε := ε) ![c1, c2, c3] hmeasures hordered hpos hlength
    obtain ⟨data1, hdata1, hemitted1⟩ :=
      readSaved_emitted hselected.nodup (hselected.reads hholds1 hbuf1 hpos hlength)
    obtain ⟨data2, hdata2, hemitted2⟩ :=
      readSaved_emitted hselected.nodup (hselected.reads hholds2 hbuf2 hpos hlength)
    obtain ⟨data3, hdata3, hemitted3⟩ :=
      readSaved_emitted hselected.nodup (hselected.reads hholds3 hbuf3 hpos hlength)
    refine ⟨saved, [c.pack (.saved data1), { c with path := path2 }.pack (.saved data2),
      { c with path := path3 }.pack (.saved data3)], (saved.insertionSort (· ≥ ·)).getLastD 0,
      readIndices saved, ?_, hselected, rfl, ?_⟩
    · unfold analysis3dim clAnalyze3dim
      simp only [htransform1, htransform2, htransform3, Option.bind_eq_bind, Option.bind_some,
        Option.getD_some, clReduction3Dim, herror, hsaved, hdata1, hdata2, hdata3]
    · intro j r p hr hp
      rcases j with _ | _ | _ | j
      · obtain rfl := Option.some.inj hr
        obtain rfl := Option.some.inj hp
        exact hemitted1
      · obtain rfl := Option.some.inj hr
        obtain rfl := Option.some.inj hp
        exact hemitted2
      · obtain rfl := Option.some.inj hr
        obtain rfl := Option.some.inj hp
        exact hemitted3
      · simp at hr

end VissServer.ServiceMgr.CurveLog
