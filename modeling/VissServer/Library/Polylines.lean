import Mathlib.Algebra.Order.Field.Basic
import Mathlib.Order.Interval.Set.Basic
import Mathlib.Tactic.FieldSimp
import Mathlib.Tactic.Ring

/-!
Points over time, and the line through some of them. A set of indices covers a sequence of points
if every point between two neighbours of the set is near the chord through them. Covers are put
together at an index that they share.
-/
namespace Polylines

structure Point (K : Type*) where
  t : K
  v : K

section Chords

variable {K : Type*} [Field K] {p q : Point K}

/-- The value at a time on the line through two points. -/
def chord (p q : Point K) (t : K) : K := p.v + (q.v - p.v) / (q.t - p.t) * (t - p.t)

@[simp] theorem chord_left : chord p q p.t = p.v := by
  simp [chord]

theorem chord_right (h : p.t ≠ q.t) : chord p q q.t = q.v := by
  have hne : q.t - p.t ≠ 0 := sub_ne_zero.mpr h.symm
  rw [chord, div_mul_cancel₀ _ hne]
  ring

theorem chord_comm (h : p.t ≠ q.t) (t : K) : chord p q t = chord q p t := by
  have hpq : q.t - p.t ≠ 0 := sub_ne_zero.mpr h.symm
  have hqp : p.t - q.t ≠ 0 := sub_ne_zero.mpr h
  rw [chord, chord]
  field_simp
  ring

/-- The time may be counted from any instant. -/
theorem chord_shift (c t : K) :
    chord ⟨p.t - c, p.v⟩ ⟨q.t - c, q.v⟩ (t - c) = chord p q t := by
  simp [chord]

/-- How far a point is above the line through two others. -/
def residual (p q s : Point K) : K := s.v - chord p q s.t

/-- A point on the chord of two others is as far above a line as the mean of the two. -/
theorem residual_mean {p q r a b : Point K} (hne : p.t ≠ r.t) (h : q.v = chord p r q.t) :
    residual a b q = (1 - (q.t - p.t) / (r.t - p.t)) * residual a b p +
      (q.t - p.t) / (r.t - p.t) * residual a b r := by
  have hpr : r.t - p.t ≠ 0 := sub_ne_zero.mpr hne.symm
  have hqt : q.t = p.t + (q.t - p.t) / (r.t - p.t) * (r.t - p.t) := by
    rw [div_mul_cancel₀ _ hpr]
    ring
  have hqv : q.v = p.v + (q.t - p.t) / (r.t - p.t) * (r.v - p.v) := by
    rw [h, chord]
    ring
  generalize (q.t - p.t) / (r.t - p.t) = mean at hqt hqv ⊢
  rw [residual, residual, residual, chord, chord, chord, hqt, hqv]
  ring

/-- Points on one line are on the chords of each other. -/
theorem chord_of_residual_eq_zero {p q r a b : Point K} (hne : p.t ≠ r.t)
    (hp : residual a b p = 0) (hq : residual a b q = 0) (hr : residual a b r = 0) :
    q.v = chord p r q.t := by
  have hpr : r.t - p.t ≠ 0 := sub_ne_zero.mpr hne.symm
  have hpv : p.v = chord a b p.t := sub_eq_zero.mp hp
  have hqv : q.v = chord a b q.t := sub_eq_zero.mp hq
  have hrv : r.v = chord a b r.t := sub_eq_zero.mp hr
  have hslope : (r.v - p.v) / (r.t - p.t) = (b.v - a.v) / (b.t - a.t) := by
    rw [div_eq_iff hpr, hrv, hpv, chord, chord]
    ring
  rw [chord, hslope, hpv, hqv, chord, chord]
  ring

end Chords

/-- A point on the chord of two others, between them, is nearer to a line than one of them if it
is further from it than the other one. -/
theorem abs_residual_lt {K : Type*} [Field K] [LinearOrder K] [IsStrictOrderedRing K]
    {p q r a b : Point K} (h : q.v = chord p r q.t)
    (hbetween : (p.t < q.t ∧ q.t < r.t) ∨ (r.t < q.t ∧ q.t < p.t))
    (hfurther : |residual a b p| < |residual a b q|) :
    |residual a b q| < |residual a b r| := by
  have hne : p.t ≠ r.t := by
    rcases hbetween with ⟨h1, h2⟩ | ⟨h1, h2⟩
    · exact (h1.trans h2).ne
    · exact (h1.trans h2).ne'
  have hmean : 0 < (q.t - p.t) / (r.t - p.t) ∧ (q.t - p.t) / (r.t - p.t) < 1 := by
    rcases hbetween with ⟨h1, h2⟩ | ⟨h1, h2⟩
    · have hpos : 0 < r.t - p.t := sub_pos.mpr (h1.trans h2)
      exact ⟨div_pos (sub_pos.mpr h1) hpos, (div_lt_one hpos).mpr (sub_lt_sub_right h2 _)⟩
    · have hneg : r.t - p.t < 0 := sub_neg.mpr (h1.trans h2)
      exact ⟨div_pos_of_neg_of_neg (sub_neg.mpr h2) hneg,
        (div_lt_one_of_neg hneg).mpr (sub_lt_sub_right h1 _)⟩
  have hres := residual_mean (a := a) (b := b) hne h
  generalize (q.t - p.t) / (r.t - p.t) = mean at hmean hres
  obtain ⟨hpos, hone⟩ := hmean
  have hle : |residual a b q| ≤ (1 - mean) * |residual a b p| + mean * |residual a b r| := by
    rw [hres]
    apply (abs_add_le _ _).trans
    rw [abs_mul, abs_mul, abs_of_pos hpos, abs_of_pos (sub_pos.mpr hone)]
  by_contra hnot
  have hle1 : (1 - mean) * |residual a b p| < (1 - mean) * |residual a b q| :=
    mul_lt_mul_of_pos_left hfurther (sub_pos.mpr hone)
  have hle2 : mean * |residual a b r| ≤ mean * |residual a b q| :=
    mul_le_mul_of_nonneg_left (not_lt.mp hnot) hpos.le
  have hsum : (1 - mean) * |residual a b q| + mean * |residual a b q| = |residual a b q| := by
    ring
  exact absurd (hle.trans_lt (add_lt_add_of_lt_of_le hle1 hle2)) (by rw [hsum]; exact lt_irrefl _)

section Covers

variable {K : Type*} [Field K] [LinearOrder K]
  {x y : ℕ → Point K} {ε : K} {S T : Set ℕ} {i j m n : ℕ}

/-- Every point between two indices is near the chord through the points there. -/
def Fits (x : ℕ → Point K) (ε : K) (i j : ℕ) : Prop :=
  ∀ k, i ≤ k → k ≤ j → |(x k).v - chord (x i) (x j) (x k).t| ≤ ε

/-- The chords between neighbours in a set of indices fit the points between them. -/
def Covers (x : ℕ → Point K) (ε : K) (S : Set ℕ) : Prop :=
  ∀ i ∈ S, ∀ j ∈ S, i < j → (∀ k ∈ S, ¬ (i < k ∧ k < j)) → Fits x ε i j

/-- There is no point between two consecutive ones. -/
theorem fits_succ [IsStrictOrderedRing K] (hε : 0 ≤ ε) (h : (x i).t ≠ (x (i + 1)).t) :
    Fits x ε i (i + 1) := by
  intro k hik hkj
  obtain rfl | rfl : k = i ∨ k = i + 1 := by omega
  · simpa using hε
  · simpa [chord_right h] using hε

theorem covers_subsingleton (h : S.Subsingleton) : Covers x ε S := by
  intro i hi j hj hij
  exact absurd (h hi hj) hij.ne

theorem covers_pair (h : Fits x ε i j) (hij : i < j) : Covers x ε {i, j} := by
  rintro a (rfl | rfl) b (rfl | rfl) hab -
  · exact absurd hab (lt_irrefl _)
  · exact h
  · exact absurd hij hab.not_gt
  · exact absurd hab (lt_irrefl _)

/-- Two covers with an index in common, up to which the one and from which the other goes. -/
theorem Covers.join (hS : Covers x ε S) (hT : Covers x ε T) (hmS : m ∈ S) (hmT : m ∈ T)
    (hSm : ∀ i ∈ S, i ≤ m) (hTm : ∀ i ∈ T, m ≤ i) : Covers x ε (S ∪ T) := by
  intro i hi j hj hij hnone
  have hm := hnone m (.inl hmS)
  by_cases hjm : j ≤ m
  · have hiS : i ∈ S := by
      rcases hi with hi | hi
      · exact hi
      · have hle := hTm i hi
        omega
    have hjS : j ∈ S := by
      rcases hj with hj | hj
      · exact hj
      · obtain rfl : j = m := le_antisymm hjm (hTm j hj)
        exact hmS
    exact hS i hiS j hjS hij fun k hk => hnone k (.inl hk)
  · have hiT : i ∈ T := by
      rcases hi with hi | hi
      · obtain rfl : i = m := by
          have hle := hSm i hi
          omega
        exact hmT
      · exact hi
    have hjT : j ∈ T := by
      rcases hj with hj | hj
      · exact absurd (hSm j hj) hjm
      · exact hj
    exact hT i hiT j hjT hij fun k hk => hnone k (.inr hk)

/-- A cover may be cut off behind an index. -/
theorem Covers.cut (hS : Covers x ε S) (m : ℕ) : Covers x ε (S ∩ Set.Iic m) := by
  intro i hi j hj hij hnone
  apply hS i hi.1 j hj.1 hij
  intro k hk hbetween
  have hkm : k ≤ m := hbetween.2.le.trans hj.2
  exact hnone k ⟨hk, hkm⟩ hbetween

theorem Covers.congr (hS : Covers x ε S) (h : ∀ k, k ≤ m → x k = y k) (hm : ∀ i ∈ S, i ≤ m) :
    Covers y ε S := by
  intro i hi j hj hij hnone k hik hkj
  have hjm := hm j hj
  rw [← h k (hkj.trans hjm), ← h i (hij.le.trans hjm), ← h j hjm]
  exact hS i hi j hj hij hnone k hik hkj

theorem Covers.shift {c : K} (hS : Covers (fun k => ⟨(x k).t - c, (x k).v⟩) ε S) :
    Covers x ε S := by
  intro i hi j hj hij hnone k hik hkj
  have hfits := hS i hi j hj hij hnone k hik hkj
  rwa [chord_shift] at hfits

/-- Points that are numbered from the other end. -/
theorem Covers.reverse (hS : Covers x ε S) (hn : ∀ i ∈ S, i ≤ n)
    (hne : ∀ i j, i < j → j ≤ n → (x i).t ≠ (x j).t) (hy : ∀ k, k ≤ n → y k = x (n - k)) :
    Covers y ε {k | k ≤ n ∧ n - k ∈ S} := by
  rintro i ⟨hin, hi⟩ j ⟨hjn, hj⟩ hij hnone k hik hkj
  have hfits := hS (n - j) hj (n - i) hi (by omega) ?_ (n - k) (by omega) (by omega)
  · rw [hy i hin, hy j hjn, hy k (hkj.trans hjn),
      ← chord_comm (hne (n - j) (n - i) (by omega) (by omega))]
    exact hfits
  · intro l hl hbetween
    have hln := hn l hl
    refine hnone (n - l) ⟨by omega, ?_⟩ (by omega)
    rwa [Nat.sub_sub_self hln]

/-- The curve through the points of a set of times: between neighbours it is their chord. -/
def NearCurve (ε : K) (kept : Set (Point K)) (s : Point K) : Prop :=
  ∀ p ∈ kept, ∀ q ∈ kept, p.t < q.t → (∀ r ∈ kept, ¬ (p.t < r.t ∧ r.t < q.t)) →
    p.t ≤ s.t → s.t ≤ q.t → |s.v - chord p q s.t| ≤ ε

/-- The points of a cover are those of a curve that all points are near to. -/
theorem Covers.nearCurve (hS : Covers x ε S) (hmono : ∀ i j, i < j → j ≤ n → (x i).t < (x j).t)
    (hn : ∀ i ∈ S, i ≤ n) {k : ℕ} (hk : k ≤ n) : NearCurve ε (x '' S) (x k) := by
  have hlt : ∀ {i j}, i ≤ n → j ≤ n → (x i).t < (x j).t → i < j := by
    intro i j hi hj hij
    by_contra hle
    rcases lt_or_eq_of_le (not_lt.mp hle) with hji | rfl
    · exact absurd hij (hmono j i hji hi).not_gt
    · exact absurd hij (lt_irrefl _)
  have hle : ∀ {i j}, i ≤ n → j ≤ n → (x i).t ≤ (x j).t → i ≤ j := by
    intro i j hi hj hij
    by_contra hji
    exact absurd (hmono j i (not_le.mp hji) hi) hij.not_gt
  rintro p ⟨i, hi, rfl⟩ q ⟨j, hj, rfl⟩ hpq hnone hps hsq
  refine hS i hi j hj (hlt (hn i hi) (hn j hj) hpq) ?_ k (hle (hn i hi) hk hps)
    (hle hk (hn j hj) hsq)
  intro l hl hbetween
  exact hnone (x l) ⟨l, hl, rfl⟩
    ⟨hmono i l hbetween.1 (hn l hl), hmono l j hbetween.2 (hn j hj)⟩

end Covers

end Polylines
