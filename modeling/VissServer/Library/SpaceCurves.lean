import Mathlib.Algebra.BigOperators.Fin
import Mathlib.Algebra.Order.BigOperators.Ring.Finset
import VissServer.Library.Neighbours
import VissServer.Library.Polylines

/-!
Several polylines over the same indices: the distance between a sample of all of them and the
chords between two others, and the intervals of indices in which no sample is far from the chords.
-/
namespace SpaceCurves

open Polylines

section Distances

variable {K : Type*} [Field K] {d : ℕ} {x : Fin d → ℕ → Point K} {i j k : ℕ}

/-- The square of the distance between a sample and the chord between two others at its time. -/
def squaredDistance (x : Fin d → ℕ → Point K) (i j k : ℕ) : K :=
  ∑ signal, Polylines.residual (x signal i) (x signal j) (x signal k) ^ 2

theorem squaredDistance_left : squaredDistance x i j i = 0 := by
  simp [squaredDistance, Polylines.residual]

theorem squaredDistance_right (hne : ∀ signal, (x signal i).t ≠ (x signal j).t) :
    squaredDistance x i j j = 0 := by
  simp [squaredDistance, Polylines.residual, chord_right (hne _)]

/-- Each polyline may count its times from an instant of its own. -/
theorem squaredDistance_shift (c : Fin d → K) (i j k : ℕ) :
    squaredDistance (fun signal l => ⟨(x signal l).t - c signal, (x signal l).v⟩) i j k =
      squaredDistance x i j k := by
  unfold squaredDistance
  simp only [Polylines.residual, chord_shift]

end Distances

section Fits

variable {K : Type*} [Field K] [LinearOrder K] {d : ℕ} {x y : Fin d → ℕ → Point K} {ε : K}
  {i j n : ℕ}

/-- Every sample between two indices is near to the chords between the samples there. -/
def SpaceFits (x : Fin d → ℕ → Point K) (ε : K) (i j : ℕ) : Prop :=
  ∀ k, i ≤ k → k ≤ j → squaredDistance x i j k ≤ ε ^ 2

theorem spaceFits_short [IsStrictOrderedRing K] (hne : ∀ signal, (x signal i).t ≠ (x signal j).t)
    (hij : i < j) (hshort : j - i ≤ 1) : SpaceFits x ε i j := by
  intro k hik hkj
  obtain rfl | rfl : k = i ∨ k = j := by omega
  · rw [squaredDistance_left]
    exact sq_nonneg ε
  · rw [squaredDistance_right hne]
    exact sq_nonneg ε

/-- Samples that are numbered from the other end. -/
theorem SpaceFits.reverse (h : SpaceFits x ε i j) (hjn : j ≤ n) (hij : i < j)
    (hne : ∀ signal, (x signal i).t ≠ (x signal j).t)
    (hy : ∀ signal k, k ≤ n → y signal (n - k) = x signal k) :
    SpaceFits y ε (n - j) (n - i) := by
  intro k hjk hki
  have hfits := h (n - k) (by omega) (by omega)
  have hsame : squaredDistance y (n - j) (n - i) k = squaredDistance x i j (n - k) := by
    unfold squaredDistance
    refine Finset.sum_congr rfl fun signal _ => ?_
    have hk := hy signal (n - k) (by omega)
    rw [Nat.sub_sub_self (by omega)] at hk
    rw [hk, hy signal j hjn, hy signal i (by omega), Polylines.residual, Polylines.residual,
      chord_comm (hne signal)]
  rw [hsame]
  exact hfits

theorem SpaceFits.congr (h : SpaceFits x ε i j) (hij : i ≤ j)
    (hxy : ∀ signal k, k ≤ j → x signal k = y signal k) : SpaceFits y ε i j := by
  intro k hik hkj
  have hfits := h k hik hkj
  unfold squaredDistance at hfits ⊢
  simpa only [hxy _ k hkj, hxy _ i hij, hxy _ j (le_refl j)] using hfits

end Fits

end SpaceCurves
