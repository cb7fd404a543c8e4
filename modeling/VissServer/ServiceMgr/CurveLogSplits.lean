import VissServer.ServiceMgr.CurveLogCaptures
import VissServer.ServiceMgr.CurveLogReduction

/-!
The reductions as one recursion over the errors that they measure: where they split a part of a
buffer, and that the reduction of one signal is this recursion as well.
-/
namespace VissServer.ServiceMgr.CurveLog

open Go Polylines Splitting

/-! ## What is measured -/

section Measured

variable {measuredError : ℕ → ℕ → ℕ → MayPanic Float64} {error : ℕ → Float64}
  {bound : Float64} {first last : ℕ}

theorem foldlM_exceed {measured : ℕ → MayPanic Float64} (l : List ℕ)
    (herror : ∀ i ∈ l, measured i = some (error i)) (max : Float64 × ℕ) :
    l.foldlM (fun max i => (measured i).map fun error =>
        if max.1 < error then (error, i) else max) max = some (l.foldl (exceed error) max) := by
  induction l generalizing max with
  | nil => rfl
  | cons e l ih =>
    rw [List.foldlM_cons, herror e List.mem_cons_self, List.foldl_cons]
    exact ih (fun i hi => herror i (List.mem_cons_of_mem e hi)) _

theorem mem_part (hle : first ≤ last) {i : ℕ} :
    i ∈ List.range' first (last - first + 1) ↔ first ≤ i ∧ i ≤ last := by
  rw [List.mem_range'_1]
  omega

/-- The first largest error between two indices. -/
def largest (error : ℕ → Float64) (first last : ℕ) : Float64 × ℕ :=
  (List.range' first (last - first + 1)).foldl (exceed error) (0, first)

theorem maxMeasured_eq (hle : first ≤ last)
    (herror : ∀ i, first ≤ i → i ≤ last → measuredError first last i = some (error i)) :
    maxMeasured measuredError first last = some (largest error first last) := by
  apply foldlM_exceed
  intro i hi
  rw [mem_part hle] at hi
  exact herror i hi.1 hi.2

theorem splitIndex_eq (hle : first ≤ last)
    (herror : ∀ i, first ≤ i → i ≤ last → measuredError first last i = some (error i)) :
    splitIndex measuredError bound first last =
      some (if bound < (largest error first last).1 then some (largest error first last).2
        else none) := by
  rw [splitIndex, maxMeasured_eq hle herror]
  rfl

/-- A buffer that ends before the last index is not measured. -/
theorem splitIndex_none (h : measuredError first last first = none) :
    splitIndex measuredError bound first last = none := by
  rw [splitIndex, maxMeasured, List.range'_succ, List.foldlM_cons, h]
  rfl

theorem foldlM_exceed_index {measured : ℕ → MayPanic Float64} (l : List ℕ)
    {max result : Float64 × ℕ}
    (h : l.foldlM (fun max i => (measured i).map fun error =>
      if max.1 < error then (error, i) else max) max = some result) :
    result.2 = max.2 ∨ result.2 ∈ l := by
  induction l generalizing max with
  | nil =>
    cases h
    exact .inl rfl
  | cons e l ih =>
    rw [List.foldlM_cons] at h
    cases he : measured e with
    | none =>
      rw [he] at h
      exact nomatch h
    | some error =>
      rw [he] at h
      rcases ih h with hsame | hmem
      · rw [hsame]
        by_cases hlt : max.1 < error
        · exact .inr (by simp [hlt])
        · exact .inl (by simp [hlt])
      · exact .inr (List.mem_cons_of_mem e hmem)

theorem splitIndex_within (measuredError : ℕ → ℕ → ℕ → MayPanic Float64) (bound : Float64) :
    Within (splitIndex measuredError bound) := by
  intro first last middle hle h
  unfold splitIndex at h
  simp only [Option.bind_eq_bind, Option.bind_eq_some_iff, Option.some.injEq,
    Option.ite_none_right_eq_some] at h
  obtain ⟨result, hresult, -, rfl⟩ := h
  rcases foldlM_exceed_index _ hresult with hsame | hmem
  · rw [hsame]
    exact ⟨le_refl _, hle⟩
  · exact (mem_part hle).mp hmem

/-- A part that is split is split where the error is larger than 0, unless the bound is
negative. -/
theorem splitIndex_inside (hle : first ≤ last) (hbound : ¬ bound < 0)
    (herror : ∀ i, first ≤ i → i ≤ last → measuredError first last i = some (error i))
    (hfirst : ¬ 0 < error first) (hlast : ¬ 0 < error last) :
    splitIndex measuredError bound first last = some none ∨
      ∃ middle, splitIndex measuredError bound first last = some (some middle) ∧
        first < middle ∧ middle < last := by
  rw [splitIndex_eq hle herror]
  by_cases hsplit : bound < (largest error first last).1
  · rw [if_pos hsplit]
    rcases foldl_exceed_cases error (List.range' first (last - first + 1)) (0, first) with
      hsame | ⟨i, hi, heq, hpos⟩
    · rw [largest, hsame] at hsplit
      exact absurd hsplit hbound
    · refine .inr ⟨(largest error first last).2, rfl, ?_⟩
      rw [largest, heq]
      rw [mem_part hle] at hi
      constructor
      · apply hi.1.lt_of_ne
        rintro rfl
        exact hfirst hpos
      · apply hi.2.lt_of_ne
        rintro rfl
        exact hlast hpos
  · exact .inl (by rw [if_neg hsplit])

end Measured

/-! ## The reduction of one signal -/

section OneDim

variable {clBuffer : List CLBufElement} {maxError : Float64} {first last : ℕ}

def error1Dim (clBuffer : List CLBufElement) (firstIndex lastIndex i : ℕ) : MayPanic Float64 :=
  (errorDim clBuffer firstIndex lastIndex i).map Float64.magnitude

theorem getElem?_eq_getD {k : ℕ} (h : k < clBuffer.length) :
    clBuffer[k]? = some (clBuffer.getD k {}) := by
  rw [List.getD_eq_getElem?_getD, List.getElem?_eq_getElem h, Option.getD_some]

theorem errorDim_short (h : clBuffer.length ≤ last) (i : ℕ) :
    errorDim clBuffer first last i = none := by
  rw [errorDim, List.getElem?_eq_none h]
  rfl

/-- The error of an element of a buffer that reaches beyond it. -/
def errorAt (clBuffer : List CLBufElement) (first last i : ℕ) : Float64 :=
  (clBuffer.getD i {}).value - ((clBuffer.getD first {}).value +
    ((clBuffer.getD last {}).value - (clBuffer.getD first {}).value) /
      ((clBuffer.getD last {}).timestamp - (clBuffer.getD first {}).timestamp) *
      ((clBuffer.getD i {}).timestamp - (clBuffer.getD first {}).timestamp))

theorem errorDim_eq (hle : first ≤ last) (hlast : last < clBuffer.length) {i : ℕ}
    (hi : i ≤ last) : errorDim clBuffer first last i = some (errorAt clBuffer first last i) := by
  rw [errorDim, getElem?_eq_getD hlast, getElem?_eq_getD (by omega), getElem?_eq_getD (by omega)]
  rfl

theorem indexed_eq (hle : first ≤ last) (hlast : last < clBuffer.length) :
    indexed clBuffer first last =
      (List.range' first (last - first + 1)).map fun k => (clBuffer.getD k {}, k) := by
  apply List.ext_getElem?
  intro i
  rw [indexed, List.getElem?_drop, List.getElem?_take, List.getElem?_zipIdx, List.getElem?_map]
  by_cases hi : first + i < last + 1
  · have hin : first + i < clBuffer.length := by omega
    rw [if_pos hi, List.getElem?_range' (by omega)]
    simp [hin]
  · have hout : (List.range' first (last - first + 1))[i]? = none := by
      rw [List.getElem?_eq_none]
      rw [List.length_range']
      omega
    rw [if_neg hi, hout]
    rfl

/-- The loop of clReduction1Dim measures these errors. -/
theorem foldl_indexed (hle : first ≤ last) (hlast : last < clBuffer.length) :
    (indexed clBuffer first last).foldl (measure (clBuffer.getD first {})
        (((clBuffer.getD last {}).value - (clBuffer.getD first {}).value) /
          ((clBuffer.getD last {}).timestamp - (clBuffer.getD first {}).timestamp))) (0, first) =
      largest (fun i => (errorAt clBuffer first last i).magnitude) first last := by
  rw [indexed_eq hle hlast, List.foldl_map]
  rfl

theorem splitIndex_error1Dim (hle : first ≤ last) (hlast : last < clBuffer.length) :
    splitIndex (error1Dim clBuffer) maxError first last =
      some (if maxError <
          (largest (fun i => (errorAt clBuffer first last i).magnitude) first last).1 then
        some (largest (fun i => (errorAt clBuffer first last i).magnitude) first last).2
        else none) := by
  apply splitIndex_eq hle
  intro i hi hi'
  rw [error1Dim, errorDim_eq hle hlast hi']
  rfl

theorem clReduction1Dim_eq (clBuffer : List CLBufElement) (maxError : Float64)
    (fuel first last : ℕ) :
    clReduction1Dim clBuffer maxError fuel first last =
      split (splitIndex (error1Dim clBuffer) maxError) fuel first last := by
  induction fuel generalizing first last with
  | zero => rfl
  | succ fuel ih =>
    rw [clReduction1Dim, split]
    by_cases hshort : last - first ≤ 1
    · rw [if_pos hshort, if_pos hshort]
    · rw [if_neg hshort, if_neg hshort]
      by_cases hlast : last < clBuffer.length
      · have hle : first ≤ last := by omega
        rw [getElem?_eq_getD hlast, getElem?_eq_getD (hle.trans_lt hlast),
          splitIndex_error1Dim hle hlast]
        simp only [Option.bind_eq_bind, Option.bind_some, foldl_indexed hle hlast, ih]
        split <;> rfl
      · have hnone : error1Dim clBuffer first last first = none := by
          rw [error1Dim, errorDim_short (not_lt.mp hlast)]
          rfl
        rw [splitIndex_none hnone, List.getElem?_eq_none (not_lt.mp hlast)]
        rfl

end OneDim

end VissServer.ServiceMgr.CurveLog
