import VissServer.ServiceMgr.CurveLogSplits

/-!
When the reductions end. At the ends of a part of a buffer no error is measured, and a part is
split at an error beyond the bound; where the bound is negative, a part without any error is split
at its first index, and then again.
-/
namespace VissServer.ServiceMgr.CurveLog

open Go Polylines Splitting

/-! ## Times -/

/-- The times go up throughout, or down throughout. -/
def StrictlyMonotone (times : List ℚ) : Prop :=
  times.Pairwise (· < ·) ∨ times.Pairwise (· > ·)

/-- A buffer of any values at strictly monotone times. -/
def Timed (clBuffer : List CLBufElement) : Prop :=
  ∃ times : List ℚ, clBuffer.map (fun e => e.timestamp) = times.map Float64.fin ∧
    StrictlyMonotone times

/-- A buffer of any values at any times that are numbers. -/
def FiniteTimes (clBuffer : List CLBufElement) : Prop :=
  ∀ e ∈ clBuffer, ∃ t, e.timestamp = .fin t

section Times

variable {clBuffer : List CLBufElement} {first last : ℕ}

theorem StrictlyMonotone.ne {times : List ℚ} (h : StrictlyMonotone times) {i j : ℕ} (hij : i < j)
    (hj : j < times.length) : times[i] ≠ times[j] := by
  rcases h with h | h
  · exact (List.pairwise_iff_getElem.mp h i j (by omega) hj hij).ne
  · exact (List.pairwise_iff_getElem.mp h i j (by omega) hj hij).ne'

theorem Timed.at (h : Timed clBuffer) : ∃ t : ℕ → ℚ,
    (∀ k, k < clBuffer.length → (clBuffer.getD k {}).timestamp = .fin (t k)) ∧
      ∀ i j, i < j → j < clBuffer.length → t j - t i ≠ 0 := by
  obtain ⟨times, heq, hmono⟩ := h
  have hlength : clBuffer.length = times.length := by
    have hlength := congrArg List.length heq
    rwa [List.length_map, List.length_map] at hlength
  have hget : ∀ {k}, k < times.length → times[k]? = some (times.getD k 0) := by
    intro k hk
    rw [List.getD_eq_getElem?_getD, List.getElem?_eq_getElem hk, Option.getD_some]
  refine ⟨fun k => times.getD k 0, ?_, ?_⟩
  · intro k hk
    have helem : (clBuffer.map (fun e => e.timestamp))[k]? = (times.map Float64.fin)[k]? := by
      rw [heq]
    rw [List.getElem?_map, List.getElem?_map, getElem?_eq_getD hk, hget (by omega)] at helem
    exact Option.some.inj helem
  · intro i j hij hj
    have hi := hget (show i < times.length by omega)
    have hj' := hget (show j < times.length by omega)
    rw [List.getElem?_eq_getElem (by omega)] at hi hj'
    dsimp only
    rw [← Option.some.inj hi, ← Option.some.inj hj']
    exact sub_ne_zero.mpr (hmono.ne hij (by omega)).symm

theorem Timed.finite (h : Timed clBuffer) : FiniteTimes clBuffer := by
  obtain ⟨t, ht, -⟩ := h.at
  intro e he
  obtain ⟨k, hk, rfl⟩ := List.getElem_of_mem he
  have hget := ht k hk
  rw [List.getD_eq_getElem?_getD, List.getElem?_eq_getElem hk, Option.getD_some] at hget
  exact ⟨t k, hget⟩

theorem FiniteTimes.at (h : FiniteTimes clBuffer) {k : ℕ} (hk : k < clBuffer.length) :
    ∃ t, (clBuffer.getD k {}).timestamp = .fin t := by
  rw [List.getD_eq_getElem?_getD, List.getElem?_eq_getElem hk, Option.getD_some]
  exact h _ (List.getElem_mem hk)

end Times

/-! ## Measures without an error at the ends -/

/-- On every part up to an index the measure gives a number at each index, none that is positive
at its ends. -/
def Settled (measuredError : ℕ → ℕ → ℕ → MayPanic Float64) (n : ℕ) : Prop :=
  ∀ a b, a < b → b ≤ n → ∃ error : ℕ → Float64,
    (∀ i, a ≤ i → i ≤ b → measuredError a b i = some (error i)) ∧
      (error a).Null ∧ (error b).Null

section Settling

variable {clBuffer clBuffer1 clBuffer2 clBuffer3 : List CLBufElement} {n : ℕ}

/-- Also at equal times, where the slope is not a number or infinite. -/
theorem errorDim_settled (h : FiniteTimes clBuffer) (hn : n < clBuffer.length) :
    Settled (errorDim clBuffer) n := by
  intro a b hab hb
  obtain ⟨ta, hta⟩ := h.at (show a < clBuffer.length by omega)
  obtain ⟨tb, htb⟩ := h.at (show b < clBuffer.length by omega)
  refine ⟨errorAt clBuffer a b, fun i _ hi => errorDim_eq hab.le (by omega) hi, ?_, ?_⟩
  · have hzero : (clBuffer.getD a {}).timestamp - (clBuffer.getD a {}).timestamp = .fin 0 := by
      rw [hta, Float64.fin_sub, sub_self]
    rw [errorAt, hzero]
    exact (Float64.null_mul_zero _).sub_add _
  · rw [errorAt, hta, htb, Float64.fin_sub]
    by_cases hne : tb - ta = 0
    · rw [hne, Float64.div_zero_mul_zero, Float64.add_nan, Float64.sub_nan]
      exact .inr rfl
    · rw [Float64.div_mul_cancel' _ hne]
      exact Float64.null_sub_add_sub _ _

theorem error1Dim_settled (h : FiniteTimes clBuffer) (hn : n < clBuffer.length) :
    Settled (error1Dim clBuffer) n := by
  intro a b hab hb
  obtain ⟨error, herror, ha, hb⟩ := errorDim_settled h hn a b hab hb
  refine ⟨fun i => (error i).magnitude, ?_, ha.magnitude, hb.magnitude⟩
  intro i hai hib
  rw [error1Dim, herror i hai hib]
  rfl

theorem squaredError2Dim_settled (h1 : FiniteTimes clBuffer1) (h2 : FiniteTimes clBuffer2)
    (hn1 : n < clBuffer1.length) (hn2 : n < clBuffer2.length) :
    Settled (squaredError2Dim clBuffer1 clBuffer2) n := by
  intro a b hab hb
  obtain ⟨error1, herror1, ha1, hb1⟩ := errorDim_settled h1 hn1 a b hab hb
  obtain ⟨error2, herror2, ha2, hb2⟩ := errorDim_settled h2 hn2 a b hab hb
  refine ⟨fun i => error1 i * error1 i + error2 i * error2 i, ?_,
    ha1.square.add ha2.square, hb1.square.add hb2.square⟩
  intro i hai hib
  rw [squaredError2Dim, herror1 i hai hib, herror2 i hai hib]
  rfl

theorem squaredError3Dim_settled (h1 : FiniteTimes clBuffer1) (h2 : FiniteTimes clBuffer2)
    (h3 : FiniteTimes clBuffer3) (hn1 : n < clBuffer1.length) (hn2 : n < clBuffer2.length)
    (hn3 : n < clBuffer3.length) :
    Settled (squaredError3Dim clBuffer1 clBuffer2 clBuffer3) n := by
  intro a b hab hb
  obtain ⟨error1, herror1, ha1, hb1⟩ := errorDim_settled h1 hn1 a b hab hb
  obtain ⟨error2, herror2, ha2, hb2⟩ := errorDim_settled h2 hn2 a b hab hb
  obtain ⟨error3, herror3, ha3, hb3⟩ := errorDim_settled h3 hn3 a b hab hb
  refine ⟨fun i => error1 i * error1 i + error2 i * error2 i + error3 i * error3 i, ?_,
    (ha1.square.add ha2.square).add ha3.square, (hb1.square.add hb2.square).add hb3.square⟩
  intro i hai hib
  rw [squaredError3Dim, herror1 i hai hib, herror2 i hai hib, herror3 i hai hib]
  rfl

/-- A recursion has a result. -/
def Terminates (reduction : ℕ → ℕ → ℕ → MayPanic (List ℕ)) (first last : ℕ) : Prop :=
  ∃ fuel saved, reduction fuel first last = some saved

theorem Settled.terminates {measuredError : ℕ → ℕ → ℕ → MayPanic Float64}
    (h : Settled measuredError n) {bound : Float64} (hbound : ¬ bound < 0) {first last : ℕ}
    (hlast : last ≤ n) : Terminates (split (splitIndex measuredError bound)) first last := by
  refine ⟨last - first, split_total ?_ (le_refl _) hlast (le_refl _)⟩
  intro a b hab _ hb
  obtain ⟨error, herror, hfirst, hend⟩ := h a b (by omega) hb
  exact splitIndex_inside (by omega) hbound herror hfirst.not_pos hend.not_pos

end Settling

/-! ## Buffers of numbers -/

/-- The points of a list, by index. -/
def pointAt (ps : List (Point ℚ)) (k : ℕ) : Point ℚ := ps.getD k { t := 0, v := 0 }

/-- No three consecutive points between two indices are on one line. -/
def NoThreeInLine (ps : List (Point ℚ)) (first last : ℕ) : Prop :=
  ∀ k, first ≤ k → k + 2 ≤ last →
    (pointAt ps (k + 1)).v ≠
      chord (pointAt ps k) (pointAt ps (k + 2)) (pointAt ps (k + 1)).t

section Points

variable {ps : List (Point ℚ)} {y : ℕ → Point ℚ} {clBuffer : List CLBufElement}
  {first last k : ℕ} {maxError : Float64}

theorem buffers_pointAt (hlast : last < ps.length) :
    Buffers (ps.map element) (pointAt ps) last := by
  intro k hk
  rw [List.getElem?_map, List.getElem?_eq_getElem (by omega), pointAt,
    List.getD_eq_getElem?_getD, List.getElem?_eq_getElem (by omega)]
  rfl

theorem pointAt_t (hk : k < ps.length) :
    (ps.map fun p => p.t)[k]? = some (pointAt ps k).t := by
  rw [List.getElem?_map, pointAt, List.getD_eq_getElem?_getD, List.getElem?_eq_getElem hk]
  rfl

theorem timed_points (h : StrictlyMonotone (ps.map fun p => p.t)) : Timed (ps.map element) := by
  refine ⟨ps.map fun p => p.t, ?_, h⟩
  rw [List.map_map, List.map_map]
  rfl

/-- The time at an index between two others is between their times. -/
theorem pointAt_between (h : StrictlyMonotone (ps.map fun p => p.t)) {i j : ℕ} (hik : i < k)
    (hkj : k < j) (hj : j < ps.length) :
    ((pointAt ps i).t < (pointAt ps k).t ∧ (pointAt ps k).t < (pointAt ps j).t) ∨
      ((pointAt ps j).t < (pointAt ps k).t ∧ (pointAt ps k).t < (pointAt ps i).t) := by
  have hget : ∀ l (hl : l < (ps.map fun p => p.t).length),
      (ps.map fun p => p.t)[l] = (pointAt ps l).t := by
    intro l hl
    have heq := pointAt_t (by rwa [List.length_map] at hl)
    rw [List.getElem?_eq_getElem hl] at heq
    exact Option.some.inj heq
  have hmap : ∀ {l}, l < ps.length → l < (ps.map fun p => p.t).length := by
    intro l hl
    rwa [List.length_map]
  rw [← hget i (hmap (by omega)), ← hget k (hmap (by omega)), ← hget j (hmap hj)]
  rcases h with h | h
  · rw [List.pairwise_iff_getElem] at h
    exact .inl ⟨h i k (hmap (by omega)) (hmap (by omega)) hik,
      h k j (hmap (by omega)) (hmap hj) hkj⟩
  · rw [List.pairwise_iff_getElem] at h
    exact .inr ⟨h k j (hmap (by omega)) (hmap hj) hkj,
      h i k (hmap (by omega)) (hmap (by omega)) hik⟩

theorem pointAt_t_ne (h : StrictlyMonotone (ps.map fun p => p.t)) {i j : ℕ} (hij : i < j)
    (hj : j < ps.length) : (pointAt ps i).t ≠ (pointAt ps j).t := by
  have hi : (ps.map fun p => p.t)[i]? = some (pointAt ps i).t := pointAt_t (by omega)
  have hj' := pointAt_t hj
  rw [List.getElem?_eq_getElem (by rw [List.length_map]; omega)] at hi hj'
  rw [← Option.some.inj hi, ← Option.some.inj hj']
  exact h.ne hij _

theorem errorDim_point (hbuffers : Buffers clBuffer y last) (hle : first ≤ last)
    (hne : (y first).t ≠ (y last).t) {i : ℕ} (hi : i ≤ last) :
    errorDim clBuffer first last i = some (.fin (residual (y first) (y last) (y i))) := by
  have hslope : (y last).t - (y first).t ≠ 0 := sub_ne_zero.mpr hne.symm
  rw [errorDim, hbuffers last (le_refl _), hbuffers first hle, hbuffers i hi]
  simp [element, Polylines.residual, chord, hslope]

/-- The first largest deviation between two indices. -/
def largestDeviation (y : ℕ → Point ℚ) (first last : ℕ) : ℚ × ℕ :=
  (List.range' first (last - first + 1)).foldl (exceed (deviation y first last)) (0, first)

theorem largest_eq (y : ℕ → Point ℚ) (first last : ℕ) :
    largest (fun i => .fin (deviation y first last i)) first last =
      (.fin (largestDeviation y first last).1, (largestDeviation y first last).2) := by
  have hzero : ∀ i ∈ List.range' first (last - first + 1), 0 < deviation y first last i ↔
      Float64.fin 0 < Float64.fin (deviation y first last i) := fun i _ => Float64.fin_lt.symm
  rcases foldl_exceed_agree (List.range' first (last - first + 1)) 0 (.fin 0) first hzero
    (fun i _ j _ => Float64.fin_lt.symm) with ⟨h, h'⟩ | ⟨i, -, h, h'⟩
  · rw [largest, largestDeviation, h]
    exact h'
  · rw [largest, largestDeviation, h]
    exact h'

theorem splitIndex_points (hbuffers : Buffers clBuffer y last) (hle : first ≤ last)
    (hne : (y first).t ≠ (y last).t) :
    splitIndex (error1Dim clBuffer) maxError first last =
      some (if maxError < .fin (largestDeviation y first last).1 then
        some (largestDeviation y first last).2 else none) := by
  have herror : ∀ i, first ≤ i → i ≤ last →
      error1Dim clBuffer first last i = some (.fin (deviation y first last i)) := by
    intro i _ hi
    rw [error1Dim, errorDim_point hbuffers hle hne hi, Option.map_some, Float64.magnitude_fin]
    rfl
  rw [splitIndex_eq hle herror, largest_eq]

/-- Either no point deviates, or the first one that deviates most is taken. -/
theorem largestDeviation_cases (hle : first ≤ last) :
    (largestDeviation y first last = (0, first) ∧
        ∀ k, first ≤ k → k ≤ last → deviation y first last k = 0) ∨
      ∃ i, first ≤ i ∧ i ≤ last ∧
        largestDeviation y first last = (deviation y first last i, i) ∧
        0 < deviation y first last i ∧
        ∀ k, first ≤ k → k ≤ last → deviation y first last k ≤ deviation y first last i ∧
          (k < i → deviation y first last k < deviation y first last i) := by
  rcases foldl_exceed_first (deviation y first last) (List.range' first (last - first + 1))
    List.pairwise_lt_range' (0, first) with ⟨hsame, hall⟩ | ⟨i, hi, heq, hpos, hall, hfirst⟩
  · refine .inl ⟨hsame, ?_⟩
    intro k hk hk'
    exact le_antisymm (hall k ((mem_part hle).mpr ⟨hk, hk'⟩)) (abs_nonneg _)
  · rw [mem_part hle] at hi
    refine .inr ⟨i, hi.1, hi.2, heq, hpos, ?_⟩
    intro k hk hk'
    have hmem := (mem_part hle).mpr ⟨hk, hk'⟩
    exact ⟨hall k hmem, hfirst k hmem⟩

theorem deviation_first : deviation y first last first = 0 := by
  simp [deviation]

theorem deviation_last (hne : (y first).t ≠ (y last).t) : deviation y first last last = 0 := by
  simp [deviation, chord_right hne]

/-- With a negative maximum, a part in which no three points are on one line is split inside. -/
theorem splitIndex_bent (h : StrictlyMonotone (ps.map fun p => p.t)) (hlong : 1 < last - first)
    (hlast : last < ps.length) (hbent : NoThreeInLine ps first last) :
    splitIndex (error1Dim (ps.map element)) maxError first last = some none ∨
      ∃ middle, splitIndex (error1Dim (ps.map element)) maxError first last =
        some (some middle) ∧ first < middle ∧ middle < last := by
  have hne := pointAt_t_ne h (show first < last by omega) hlast
  rw [splitIndex_points (buffers_pointAt hlast) (by omega) hne]
  rcases largestDeviation_cases (y := pointAt ps) (show first ≤ last by omega) with
    ⟨-, hall⟩ | ⟨i, hi, hi', heq, hpos, -⟩
  · have hzero : ∀ k, first ≤ k → k ≤ last →
        residual (pointAt ps first) (pointAt ps last) (pointAt ps k) = 0 :=
      fun k hk hk' => abs_eq_zero.mp (hall k hk hk')
    exact absurd (chord_of_residual_eq_zero (pointAt_t_ne h (by omega) (by omega))
      (hzero first (le_refl _) (by omega)) (hzero (first + 1) (by omega) (by omega))
      (hzero (first + 2) (by omega) (by omega))) (hbent first (le_refl _) (by omega))
  · by_cases hsplit : maxError < .fin (largestDeviation (pointAt ps) first last).1
    · refine .inr ⟨i, by rw [if_pos hsplit, heq], ?_, ?_⟩
      · apply hi.lt_of_ne
        rintro rfl
        exact absurd hpos (by rw [deviation_first]; exact lt_irrefl _)
      · apply hi'.lt_of_ne
        rintro rfl
        exact absurd hpos (by rw [deviation_last hne]; exact lt_irrefl _)
    · exact .inl (by rw [if_neg hsplit])

/-- A point on the chord of its neighbours is never the first that deviates most. -/
theorem splitIndex_ne_middle (h : StrictlyMonotone (ps.map fun p => p.t)) (hfirst : first ≤ k)
    (hlast : k + 2 ≤ last) (hlength : last < ps.length)
    (hline : (pointAt ps (k + 1)).v =
      chord (pointAt ps k) (pointAt ps (k + 2)) (pointAt ps (k + 1)).t) :
    splitIndex (error1Dim (ps.map element)) maxError first last ≠ some (some (k + 1)) := by
  have hne := pointAt_t_ne h (show first < last by omega) hlength
  rw [splitIndex_points (buffers_pointAt hlength) (by omega) hne]
  intro heq
  have hindex : (largestDeviation (pointAt ps) first last).2 = k + 1 := by
    by_cases hsplit : maxError < .fin (largestDeviation (pointAt ps) first last).1
    · rw [if_pos hsplit] at heq
      exact Option.some.inj (Option.some.inj heq)
    · rw [if_neg hsplit] at heq
      exact nomatch heq
  rcases largestDeviation_cases (y := pointAt ps) (show first ≤ last by omega) with
    ⟨hsame, -⟩ | ⟨i, -, -, hpeak, -, hall⟩
  · rw [hsame] at hindex
    omega
  · rw [hpeak] at hindex
    obtain rfl : i = k + 1 := hindex
    have hbefore := (hall k hfirst (by omega)).2 (by omega)
    have hafter := (hall (k + 2) (by omega) hlast).1
    exact absurd (abs_residual_lt hline
      (pointAt_between h (by omega) (by omega) (by omega)) hbefore) hafter.not_gt

/-- The reduction of one signal, with a negative maximum. -/
theorem terminates_iff_of_neg (h : StrictlyMonotone (ps.map fun p => p.t))
    (hlast : last < ps.length) (hneg : maxError < 0) :
    Terminates (clReduction1Dim (ps.map element) maxError) first last ↔
      NoThreeInLine ps first last := by
  constructor
  · rintro ⟨fuel, saved, hsaved⟩ k hk hk' hline
    rw [clReduction1Dim_eq] at hsaved
    have hall : ∀ a b, first ≤ a → b ≤ last → 1 < b - a →
        splitIndex (error1Dim (ps.map element)) maxError a b ≠ some none := by
      intro a b ha hb hab
      have hne := pointAt_t_ne h (show a < b by omega) (by omega)
      have hnonneg : 0 ≤ (largestDeviation (pointAt ps) a b).1 := by
        rcases largestDeviation_cases (y := pointAt ps) (show a ≤ b by omega) with
          ⟨hsame, -⟩ | ⟨i, -, -, hpeak, hpos, -⟩
        · rw [hsame]
        · rw [hpeak]
          exact hpos.le
      rw [splitIndex_points (buffers_pointAt (by omega)) (by omega) hne, if_pos]
      · exact nofun
      · cases maxError with
        | nan => exact absurd hneg (Float64.not_nan_lt 0)
        | inf m => exact hneg
        | fin ε => exact Float64.fin_lt.mpr ((Float64.fin_lt.mp hneg).trans_le hnonneg)
    have hmem := split_everywhere (splitIndex_within _ _) hsaved hall (k := k + 1) (by omega)
      (by omega)
    obtain ⟨a, b, ha, hb, hak, hkb, hpicked⟩ :=
      split_picked (splitIndex_within _ _) hsaved hmem
    exact splitIndex_ne_middle h (by omega) (by omega) (by omega) hline hpicked
  · intro hbent
    obtain ⟨saved, hsaved⟩ : ∃ saved,
        split (splitIndex (error1Dim (ps.map element)) maxError) (last - first) first last =
          some saved :=
      split_total (fun a b hab ha hb =>
        splitIndex_bent h hab (by omega) fun k hk hk' => hbent k (by omega) (by omega))
        (le_refl first) (le_refl last) (le_refl _)
    refine ⟨last - first, saved, ?_⟩
    rw [clReduction1Dim_eq]
    exact hsaved

end Points

/-! ## The three reductions -/

/-- The reductions of several signals end for any values and any maximum. That of one signal ends
as well, unless its maximum is negative and three consecutive numbers are on one line. -/
theorem reductions_terminate_iff (maxError : Float64) (first last : ℕ) :
    (∀ clBuffer1 clBuffer2 clBuffer3 : List CLBufElement,
      Timed clBuffer1 → Timed clBuffer2 → Timed clBuffer3 →
      last < clBuffer1.length → last < clBuffer2.length → last < clBuffer3.length →
      Terminates (clReduction2Dim clBuffer1 clBuffer2 maxError) first last ∧
      Terminates (clReduction3Dim clBuffer1 clBuffer2 clBuffer3 maxError) first last ∧
      (¬ maxError < 0 → Terminates (clReduction1Dim clBuffer1 maxError) first last)) ∧
    ∀ ps : List (Point ℚ), StrictlyMonotone (ps.map fun p => p.t) → last < ps.length →
      (Terminates (clReduction1Dim (ps.map element) maxError) first last ↔
        (maxError < 0 → NoThreeInLine ps first last)) := by
  have hone : ∀ clBuffer : List CLBufElement, Timed clBuffer → last < clBuffer.length →
      ¬ maxError < 0 → Terminates (clReduction1Dim clBuffer maxError) first last := by
    intro clBuffer h hlast hbound
    obtain ⟨fuel, saved, hsaved⟩ :
        Terminates (split (splitIndex (error1Dim clBuffer) maxError)) first last :=
      (error1Dim_settled h.finite hlast).terminates hbound (le_refl last)
    exact ⟨fuel, saved, (clReduction1Dim_eq _ _ _ _ _).trans hsaved⟩
  constructor
  · intro clBuffer1 clBuffer2 clBuffer3 h1 h2 h3 hlast1 hlast2 hlast3
    have hbound : ¬ maxError * maxError < 0 := maxError.square_not_neg
    refine ⟨?_, ?_, hone clBuffer1 h1 hlast1⟩
    · exact (squaredError2Dim_settled h1.finite h2.finite hlast1 hlast2).terminates hbound
        (le_refl last)
    · exact (squaredError3Dim_settled h1.finite h2.finite h3.finite hlast1 hlast2
        hlast3).terminates hbound (le_refl last)
  · intro ps h hlast
    by_cases hneg : maxError < 0
    · rw [terminates_iff_of_neg h hlast hneg]
      exact ⟨fun hbent _ => hbent, fun hbent => hbent hneg⟩
    · refine iff_of_true (hone _ (timed_points h) ?_ hneg) fun hneg' => absurd hneg' hneg
      rwa [List.length_map]

/-- Three equal values, and a maximum of -1. -/
theorem reduction_without_end :
    ¬ ∀ (maxError : Float64) (first last : ℕ) (ps : List (Point ℚ)),
      StrictlyMonotone (ps.map fun p => p.t) → first < ps.length → last < ps.length →
      Terminates (clReduction1Dim (ps.map element) maxError) first last := by
  intro h
  have hmono : StrictlyMonotone ([⟨2, 0⟩, ⟨1, 0⟩, ⟨0, 0⟩].map fun p : Point ℚ => p.t) :=
    .inr (by decide +kernel)
  have hends := h (.fin (-1)) 0 2 _ hmono (by decide) (by decide)
  rw [terminates_iff_of_neg hmono (by decide) (Float64.fin_lt.mpr (by decide +kernel))] at hends
  exact hends 0 (le_refl _) (le_refl _) (by decide +kernel)

end VissServer.ServiceMgr.CurveLog
