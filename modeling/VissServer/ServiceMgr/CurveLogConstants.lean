import VissServer.ServiceMgr.CurveLogTermination

/-!
A signal that is constant makes no difference to a reduction: its errors are zero, and errors of
one signal compare as their squares do.
-/
namespace VissServer.ServiceMgr.CurveLog

open Go Splitting

section Constant

variable {clBuffer1 clBuffer2 clBuffer3 : List CLBufElement} {c : ℚ} {first last i : ℕ}

theorem errorDim_constant (htimed : Timed clBuffer3) (hc : ∀ e ∈ clBuffer3, e.value = .fin c)
    (hlt : first < last) (hlast : last < clBuffer3.length) (hi : i ≤ last) :
    errorDim clBuffer3 first last i = some (.fin 0) := by
  obtain ⟨t, ht, htimes⟩ := htimed.at
  have hvalue : ∀ k, k < clBuffer3.length → (clBuffer3.getD k {}).value = .fin c := by
    intro k hk
    rw [List.getD_eq_getElem?_getD, List.getElem?_eq_getElem hk, Option.getD_some]
    exact hc _ (List.getElem_mem hk)
  have hne := htimes first last hlt hlast
  rw [errorDim_eq hlt.le hlast hi, errorAt, ht first (by omega), ht last hlast,
    ht i (by omega), hvalue first (by omega), hvalue last hlast, hvalue i (by omega),
    Float64.fin_sub, Float64.fin_sub, Float64.fin_sub, Float64.fin_div hne, Float64.fin_mul,
    Float64.fin_add, Float64.fin_sub]
  simp

/-- A third signal that is constant. -/
theorem splitIndex_constant3 (htimed : Timed clBuffer3)
    (hc : ∀ e ∈ clBuffer3, e.value = .fin c) (hlength : clBuffer1.length ≤ clBuffer3.length)
    (bound : Float64) (hlt : first < last) :
    splitIndex (squaredError3Dim clBuffer1 clBuffer2 clBuffer3) bound first last =
      splitIndex (squaredError2Dim clBuffer1 clBuffer2) bound first last := by
  by_cases hlast : last < clBuffer1.length ∧ last < clBuffer2.length
  · have herror : ∀ i, first ≤ i → i ≤ last →
        squaredError2Dim clBuffer1 clBuffer2 first last i =
          some (errorAt clBuffer1 first last i * errorAt clBuffer1 first last i +
            errorAt clBuffer2 first last i * errorAt clBuffer2 first last i) := by
      intro i _ hi
      rw [squaredError2Dim, errorDim_eq hlt.le hlast.1 hi, errorDim_eq hlt.le hlast.2 hi]
      rfl
    rw [splitIndex_eq hlt.le herror, splitIndex_eq hlt.le]
    intro i _ hi
    rw [squaredError3Dim, errorDim_eq hlt.le hlast.1 hi, errorDim_eq hlt.le hlast.2 hi,
      errorDim_constant htimed hc hlt (by omega) hi]
    simp only [Option.bind_eq_bind, Option.bind_some, Float64.fin_mul, mul_zero,
      Float64.add_zero']
  · have hnone : errorDim clBuffer1 first last first = none ∨
        errorDim clBuffer2 first last first = none := by
      by_cases h1 : last < clBuffer1.length
      · exact .inr (errorDim_short (not_lt.mp fun h2 => hlast ⟨h1, h2⟩) first)
      · exact .inl (errorDim_short (not_lt.mp h1) first)
    rw [splitIndex_none, splitIndex_none]
    · rcases hnone with h | h
      · rw [squaredError2Dim, h]
        rfl
      · rw [squaredError2Dim, h]
        cases errorDim clBuffer1 first last first <;> rfl
    · rcases hnone with h | h
      · rw [squaredError3Dim, h]
        rfl
      · rw [squaredError3Dim, h]
        cases errorDim clBuffer1 first last first <;> rfl

/-- A second signal that is constant: errors and bound compare as their squares. -/
theorem splitIndex_constant2 (htimed : Timed clBuffer2)
    (hc : ∀ e ∈ clBuffer2, e.value = .fin c) (hlength : clBuffer1.length ≤ clBuffer2.length)
    {maxError : Float64} (hnonneg : ¬ maxError < 0) (hlt : first < last) :
    splitIndex (squaredError2Dim clBuffer1 clBuffer2) (maxError * maxError) first last =
      splitIndex (error1Dim clBuffer1) maxError first last := by
  by_cases hlast : last < clBuffer1.length
  · have herror : ∀ i, first ≤ i → i ≤ last → squaredError2Dim clBuffer1 clBuffer2 first last i =
        some (errorAt clBuffer1 first last i * errorAt clBuffer1 first last i) := by
      intro i _ hi
      rw [squaredError2Dim, errorDim_eq hlt.le hlast hi,
        errorDim_constant htimed hc hlt (by omega) hi]
      simp only [Option.bind_eq_bind, Option.bind_some, Float64.fin_mul, mul_zero,
        Float64.add_zero']
    have hpos : ∀ x : Float64, 0 < x.magnitude ↔ 0 < x * x := by
      intro x
      have h := Float64.magnitude_lt_iff_square (.fin 0) x
      rwa [Float64.magnitude_fin, abs_zero, Float64.fin_mul, mul_zero] at h
    have hbound : ∀ x : Float64, maxError < x.magnitude ↔ maxError * maxError < x * x := by
      intro x
      have hmagnitude : maxError.magnitude = maxError := if_neg hnonneg
      rw [← Float64.magnitude_lt_iff_square, hmagnitude]
    rw [splitIndex_error1Dim hlt.le hlast, splitIndex_eq hlt.le herror, largest, largest]
    have hagree := foldl_exceed_agree (K := Float64) (L := Float64)
      (List.range' first (last - first + 1)) 0 0 first
      (fun i _ => hpos (errorAt clBuffer1 first last i)) (fun i _ j _ =>
        Float64.magnitude_lt_iff_square (errorAt clBuffer1 first last i)
          (errorAt clBuffer1 first last j))
    rcases hagree with ⟨h, h'⟩ | ⟨i, -, h, h'⟩
    · rw [h, h', if_neg hnonneg, if_neg maxError.square_not_neg]
    · rw [h, h']
      simp only [hbound]
  · have hnone : errorDim clBuffer1 first last first = none :=
      errorDim_short (not_lt.mp hlast) first
    rw [splitIndex_none, splitIndex_none]
    · rw [error1Dim, hnone]
      rfl
    · rw [squaredError2Dim, hnone]
      rfl

end Constant

/-- The reductions of three and of two signals, where the last signal is constant and no shorter
than the first: the same indices are saved, and also the recursion has an end or fails alike. -/
theorem reductions_extend (c : ℚ) :
    (∀ clBuffer1 clBuffer2 clBuffer3 : List CLBufElement, Timed clBuffer3 →
      (∀ e ∈ clBuffer3, e.value = .fin c) → clBuffer1.length ≤ clBuffer3.length →
      ∀ (maxError : Float64) (fuel first last : ℕ),
        clReduction3Dim clBuffer1 clBuffer2 clBuffer3 maxError fuel first last =
          clReduction2Dim clBuffer1 clBuffer2 maxError fuel first last) ∧
    ∀ clBuffer1 clBuffer2 : List CLBufElement, Timed clBuffer2 →
      (∀ e ∈ clBuffer2, e.value = .fin c) → clBuffer1.length ≤ clBuffer2.length →
      ∀ maxError : Float64, ¬ maxError < 0 → ∀ fuel first last : ℕ,
        clReduction2Dim clBuffer1 clBuffer2 maxError fuel first last =
          clReduction1Dim clBuffer1 maxError fuel first last := by
  constructor
  · intro clBuffer1 clBuffer2 clBuffer3 htimed hc hlength maxError fuel first last
    apply split_congr
    intro a b hab
    exact splitIndex_constant3 htimed hc hlength _ (by omega)
  · intro clBuffer1 clBuffer2 htimed hc hlength maxError hnonneg fuel first last
    rw [clReduction1Dim_eq]
    apply split_congr
    intro a b hab
    exact splitIndex_constant2 htimed hc hlength hnonneg (by omega)

end VissServer.ServiceMgr.CurveLog
