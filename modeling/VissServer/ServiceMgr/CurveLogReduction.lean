import VissServer.Library.Polylines
import VissServer.ServiceMgr.CurveLog

/-!
The reduction of a buffer of numbers in which no two elements have the same time: the saved
indices, together with the ends of the buffer, cover it.
-/
namespace VissServer.ServiceMgr.CurveLog

open Go Polylines

/-- A point as an element of the buffer. -/
def element (p : Point ℚ) : CLBufElement where
  value := .fin p.v
  timestamp := .fin p.t

section Measuring

variable {y : ℕ → Point ℚ} {clBuffer : List CLBufElement} {first last : ℕ}

/-- The buffer holds the points up to an index. -/
def Buffers (clBuffer : List CLBufElement) (y : ℕ → Point ℚ) (last : ℕ) : Prop :=
  ∀ k, k ≤ last → clBuffer[k]? = some (element (y k))

/-- How far a point is from the chord through two others. -/
def deviation (y : ℕ → Point ℚ) (first last k : ℕ) : ℚ :=
  |(y k).v - chord (y first) (y last) (y k).t|

theorem measuredError_element (hne : (y first).t ≠ (y last).t) (k : ℕ) :
    measuredError (element (y first)) (element (y k))
        (((element (y last)).value - (element (y first)).value) /
          ((element (y last)).timestamp - (element (y first)).timestamp)) =
      .fin (deviation y first last k) := by
  have hslope : (y last).t - (y first).t ≠ 0 := sub_ne_zero.mpr hne.symm
  simp [measuredError, element, deviation, chord, hslope]

theorem mem_indexed_iff (hbuffers : Buffers clBuffer y last) {e : CLBufElement × ℕ} :
    e ∈ indexed clBuffer first last ↔
      ∃ k, first ≤ k ∧ k ≤ last ∧ e = (element (y k), k) := by
  rw [indexed, List.mem_iff_getElem?]
  constructor
  · rintro ⟨i, hi⟩
    rw [List.getElem?_drop, List.getElem?_take] at hi
    split at hi
    · next hlt =>
      rw [List.getElem?_zipIdx, hbuffers (first + i) (by omega)] at hi
      refine ⟨first + i, by omega, by omega, ?_⟩
      simpa using hi.symm
    · exact nomatch hi
  · rintro ⟨k, hfirst, hlast, rfl⟩
    refine ⟨k - first, ?_⟩
    rw [List.getElem?_drop, List.getElem?_take, if_pos (by omega), List.getElem?_zipIdx,
      Nat.add_sub_cancel' hfirst, hbuffers k hlast]
    simp

/-- The largest of the errors, unless none is larger than what they are compared with first. -/
theorem measure_foldl {a : CLBufElement} {linearSlope : Float64} {error : ℕ → ℚ}
    (l : List (CLBufElement × ℕ))
    (herror : ∀ e ∈ l, measuredError a e.1 linearSlope = .fin (error e.2)) (max : ℚ) (index : ℕ) :
    ∃ largest index', l.foldl (measure a linearSlope) (.fin max, index) = (.fin largest, index') ∧
      max ≤ largest ∧ (∀ e ∈ l, error e.2 ≤ largest) ∧
      (largest = max ∨ ∃ e ∈ l, e.2 = index' ∧ error e.2 = largest) := by
  have hgeneral : ∃ largest index',
      l.foldl (measure a linearSlope) (.fin max, index) = (.fin largest, index') ∧
      max ≤ largest ∧ (∀ e ∈ l, error e.2 ≤ largest) ∧
      ((largest = max ∧ index' = index) ∨ ∃ e ∈ l, e.2 = index' ∧ error e.2 = largest) := by
    induction l generalizing max index with
    | nil => exact ⟨max, index, rfl, le_refl _, nofun, .inl ⟨rfl, rfl⟩⟩
    | cons e l ih =>
      have hrest := fun x hx => herror x (List.mem_cons_of_mem e hx)
      rw [List.foldl_cons, measure, herror e List.mem_cons_self]
      simp only [Float64.fin_lt]
      split
      · next hlt =>
        obtain ⟨largest, index', hfold, hle, hall, hmax⟩ := ih hrest (error e.2) e.2
        refine ⟨largest, index', hfold, hlt.le.trans hle, ?_, ?_⟩
        · exact List.forall_mem_cons.mpr ⟨hle, hall⟩
        · rcases hmax with ⟨rfl, rfl⟩ | ⟨x, hx, hmax⟩
          · exact .inr ⟨e, List.mem_cons_self, rfl, rfl⟩
          · exact .inr ⟨x, List.mem_cons_of_mem e hx, hmax⟩
      · next hle =>
        obtain ⟨largest, index', hfold, hle', hall, hmax⟩ := ih hrest max index
        refine ⟨largest, index', hfold, hle', ?_, ?_⟩
        · exact List.forall_mem_cons.mpr ⟨(not_lt.mp hle).trans hle', hall⟩
        · rcases hmax with hsame | ⟨x, hx, hmax⟩
          · exact .inl hsame
          · exact .inr ⟨x, List.mem_cons_of_mem e hx, hmax⟩
  obtain ⟨largest, index', hfold, hle, hall, hmax⟩ := hgeneral
  exact ⟨largest, index', hfold, hle, hall, hmax.imp_left And.left⟩

/-- What the loop of clReduction1Dim measures. -/
theorem measured_spec (hbuffers : Buffers clBuffer y last) (hlt : first < last)
    (hne : (y first).t ≠ (y last).t) :
    ∃ max index, (indexed clBuffer first last).foldl
        (measure (element (y first)) (((element (y last)).value - (element (y first)).value) /
          ((element (y last)).timestamp - (element (y first)).timestamp))) (0, first) =
        (.fin max, index) ∧
      (∀ k, first ≤ k → k ≤ last → deviation y first last k ≤ max) ∧
      (0 < max → first < index ∧ index < last ∧ deviation y first last index = max) := by
  have herror : ∀ e ∈ indexed clBuffer first last,
      measuredError (element (y first)) e.1 (((element (y last)).value -
        (element (y first)).value) / ((element (y last)).timestamp -
          (element (y first)).timestamp)) = .fin (deviation y first last e.2) := by
    intro e he
    obtain ⟨k, -, -, rfl⟩ := (mem_indexed_iff hbuffers).mp he
    exact measuredError_element hne k
  obtain ⟨max, index, hfold, -, hall, hmax⟩ :=
    measure_foldl (indexed clBuffer first last) herror 0 first
  refine ⟨max, index, hfold, ?_, ?_⟩
  · intro k hfirst hlast
    exact hall (element (y k), k) ((mem_indexed_iff hbuffers).mpr ⟨k, hfirst, hlast, rfl⟩)
  · intro hpos
    rcases hmax with rfl | ⟨e, he, rfl, hdev⟩
    · exact absurd hpos (lt_irrefl _)
    · obtain ⟨k, hfirst, hlast, rfl⟩ := (mem_indexed_iff hbuffers).mp he
      have hleft : deviation y first last first = 0 := by simp [deviation]
      have hright : deviation y first last last = 0 := by simp [deviation, chord_right hne]
      have hkfirst : k ≠ first := by
        rintro rfl
        exact hpos.ne (hleft.symm.trans hdev)
      have hklast : k ≠ last := by
        rintro rfl
        exact hpos.ne (hright.symm.trans hdev)
      exact ⟨by omega, by omega, hdev⟩

end Measuring

section Reduction

variable {y : ℕ → Point ℚ} {clBuffer : List CLBufElement} {ε : ℚ}

/-- The indices that are saved between two others, with these. -/
def withEnds (saved : List ℕ) (first last : ℕ) : Set ℕ := {k | k = first ∨ k = last ∨ k ∈ saved}

/-- What the reduction of a part of a buffer gives. -/
structure Reduced (y : ℕ → Point ℚ) (ε : ℚ) (first last : ℕ) (saved : List ℕ) : Prop where
  inside : ∀ k ∈ saved, first < k ∧ k < last
  covers : Covers y ε (withEnds saved first last)
  some_of_deviates : (∃ k, first ≤ k ∧ k ≤ last ∧ ε < deviation y first last k) → saved ≠ []

theorem withEnds_nil (first last : ℕ) : withEnds [] first last = {first, last} := by
  ext k
  simp [withEnds]

theorem reduced_nil {first last : ℕ} (hfits : Fits y ε first last) (hle : first ≤ last) :
    Reduced y ε first last [] where
  inside := nofun
  covers := by
    rw [withEnds_nil]
    rcases hle.eq_or_lt with rfl | hlt
    · exact covers_subsingleton (by simp)
    · exact covers_pair hfits hlt
  some_of_deviates := by
    rintro ⟨k, hfirst, hlast, hdev⟩
    exact absurd hdev (hfits k hfirst hlast).not_gt

/-- Two reductions that share an index. -/
theorem Reduced.join {first middle last : ℕ} {saved1 saved2 : List ℕ}
    (h1 : Reduced y ε first middle saved1) (h2 : Reduced y ε middle last saved2)
    (hfirst : first < middle) (hlast : middle < last) :
    Reduced y ε first last (saved1 ++ saved2 ++ [middle]) where
  inside := by
    intro k hk
    simp only [List.mem_append, List.mem_singleton] at hk
    rcases hk with (hk | hk) | rfl
    · have hin := h1.inside k hk
      omega
    · have hin := h2.inside k hk
      omega
    · exact ⟨hfirst, hlast⟩
  covers := by
    have hunion : withEnds (saved1 ++ saved2 ++ [middle]) first last =
        withEnds saved1 first middle ∪ withEnds saved2 middle last := by
      ext k
      simp only [withEnds, List.mem_append, List.mem_singleton, Set.mem_union, Set.mem_ofPred_eq]
      tauto
    rw [hunion]
    apply h1.covers.join h2.covers (.inr (.inl rfl)) (.inl rfl)
    · rintro k (rfl | rfl | hk)
      · exact hfirst.le
      · exact le_refl _
      · exact (h1.inside k hk).2.le
    · rintro k (rfl | rfl | hk)
      · exact le_refl _
      · exact hlast.le
      · exact (h2.inside k hk).1.le
  some_of_deviates := by simp

theorem reduced_short {first last : ℕ} (hε : 0 ≤ ε)
    (htimes : ∀ i j, i < j → j ≤ last → (y i).t ≠ (y j).t) (hle : first ≤ last)
    (hshort : last - first ≤ 1) : Reduced y ε first last [] := by
  apply reduced_nil _ hle
  obtain rfl | rfl : last = first ∨ last = first + 1 := by omega
  · intro k hfirst hlast
    obtain rfl : k = last := by omega
    simpa using hε
  · exact fits_succ hε (htimes first (first + 1) (by omega) (le_refl _))

/-- With enough fuel the reduction ends; it is an induction over the fuel, in which the two parts
of the buffer share the index of the largest error. -/
theorem clReduction1Dim_spec (hε : 0 ≤ ε) (fuel first last : ℕ)
    (hbuffers : Buffers clBuffer y last)
    (htimes : ∀ i j, i < j → j ≤ last → (y i).t ≠ (y j).t) (hle : first ≤ last)
    (hfuel : last - first ≤ fuel) :
    ∃ saved, clReduction1Dim clBuffer (.fin ε) fuel first last = some saved ∧
      Reduced y ε first last saved := by
  induction fuel generalizing first last with
  | zero =>
    refine ⟨[], ?_, reduced_short hε htimes hle (by omega)⟩
    rw [clReduction1Dim, if_pos (by omega)]
  | succ fuel ih =>
    rw [clReduction1Dim]
    by_cases hends : last - first ≤ 1
    · exact ⟨[], if_pos hends, reduced_short hε htimes hle hends⟩
    · have hlt : first < last := by omega
      have hne : (y first).t ≠ (y last).t := htimes first last hlt (le_refl _)
      obtain ⟨max, index, hfold, hall, hmax⟩ := measured_spec hbuffers hlt hne
      rw [if_neg hends, hbuffers last (le_refl _), hbuffers first hle]
      simp only [Option.bind_eq_bind, Option.bind_some, hfold, Float64.fin_lt]
      by_cases hsave : ε < max
      · obtain ⟨hfirst, hlast, -⟩ := hmax (hε.trans_lt hsave)
        obtain ⟨saved1, hsaved1, hreduced1⟩ := ih first index
          (fun k hk => hbuffers k (by omega)) (fun i j hij hj => htimes i j hij (by omega))
          hfirst.le (by omega)
        obtain ⟨saved2, hsaved2, hreduced2⟩ := ih index last hbuffers htimes hlast.le
          (by omega)
        refine ⟨saved1 ++ saved2 ++ [index], ?_, hreduced1.join hreduced2 hfirst hlast⟩
        simp [hsave, hsaved1, hsaved2]
      · refine ⟨[], if_neg hsave, reduced_nil ?_ hle⟩
        intro k hkfirst hklast
        exact (hall k hkfirst hklast).trans (not_lt.mp hsave)

end Reduction

end VissServer.ServiceMgr.CurveLog
