import Mathlib.Order.Interval.Set.Basic
import VissServer.Library.Splitting

/-!
A relation between the neighbours in a set of indices. Sets whose neighbours are related are put
together at an index that they share, and may be numbered from the other end. The recursion that
splits an interval leaves neighbours between which nothing is split any more.
-/
namespace Neighbours

/-- Neighbours in the set are related. -/
def Related (R : ℕ → ℕ → Prop) (S : Set ℕ) : Prop :=
  ∀ i ∈ S, ∀ j ∈ S, i < j → (∀ k ∈ S, ¬ (i < k ∧ k < j)) → R i j

section Sets

variable {R R' : ℕ → ℕ → Prop} {S T : Set ℕ} {i j m n : ℕ}

theorem related_subsingleton (h : S.Subsingleton) : Related R S := by
  intro i hi j hj hij
  exact absurd (h hi hj) hij.ne

theorem related_pair (h : R i j) (hij : i < j) : Related R {i, j} := by
  rintro a (rfl | rfl) b (rfl | rfl) hab -
  · exact absurd hab (lt_irrefl _)
  · exact h
  · exact absurd hij hab.not_gt
  · exact absurd hab (lt_irrefl _)

theorem Related.mono (hS : Related R S) (h : ∀ i ∈ S, ∀ j ∈ S, i < j → R i j → R' i j) :
    Related R' S := by
  intro i hi j hj hij hnone
  exact h i hi j hj hij (hS i hi j hj hij hnone)

/-- Two sets with an index in common, up to which the one and from which the other goes. -/
theorem Related.join (hS : Related R S) (hT : Related R T) (hmS : m ∈ S) (hmT : m ∈ T)
    (hSm : ∀ i ∈ S, i ≤ m) (hTm : ∀ i ∈ T, m ≤ i) : Related R (S ∪ T) := by
  intro i hi j hj hij hnone
  have hm := hnone m (.inl hmS)
  by_cases hjm : j ≤ m
  · have hiS : i ∈ S := by
      rcases hi with hi | hi
      · exact hi
      · have hle := hTm i hi
        omega
    have hjS : j ∈ S := by
      rcases hj with hj | hj
      · exact hj
      · have hle := hTm j hj
        obtain rfl : j = m := by omega
        exact hmS
    exact hS i hiS j hjS hij fun k hk => hnone k (.inl hk)
  · have hiT : i ∈ T := by
      rcases hi with hi | hi
      · have hle := hSm i hi
        obtain rfl : i = m := by omega
        exact hmT
      · exact hi
    have hjT : j ∈ T := by
      rcases hj with hj | hj
      · exact absurd (hSm j hj) hjm
      · exact hj
    exact hT i hiT j hjT hij fun k hk => hnone k (.inr hk)

/-- What is behind an index may be left out. -/
theorem Related.cut (hS : Related R S) (m : ℕ) : Related R (S ∩ Set.Iic m) := by
  intro i hi j hj hij hnone
  apply hS i hi.1 j hj.1 hij
  intro k hk hbetween
  have hkm : k ≤ m := hbetween.2.le.trans hj.2
  exact hnone k ⟨hk, hkm⟩ hbetween

/-- Indices that are numbered from the other end. -/
theorem Related.reverse (hS : Related R S) (hn : ∀ i ∈ S, i ≤ n)
    (hR : ∀ i j, i < j → j ≤ n → R i j → R' (n - j) (n - i)) :
    Related R' {k | k ≤ n ∧ n - k ∈ S} := by
  rintro i ⟨hin, hi⟩ j ⟨hjn, hj⟩ hij hnone
  have hrelated : R (n - j) (n - i) := by
    apply hS (n - j) hj (n - i) hi (by omega)
    intro l hl hbetween
    have hln := hn l hl
    refine hnone (n - l) ⟨by omega, ?_⟩ (by omega)
    rwa [Nat.sub_sub_self hln]
  have hback := hR (n - j) (n - i) (by omega) (by omega) hrelated
  rwa [Nat.sub_sub_self hin, Nat.sub_sub_self hjn] at hback

end Sets

section Splits

open Splitting

variable {pick : ℕ → ℕ → Option (Option ℕ)} {fuel first last : ℕ} {l : List ℕ}

/-- An interval that is not split any more. -/
def Whole (pick : ℕ → ℕ → Option (Option ℕ)) (i j : ℕ) : Prop := j - i ≤ 1 ∨ pick i j = some none

/-- The indices of a list, with the ends of the interval. -/
def between (first last : ℕ) (l : List ℕ) : Set ℕ := {k | k = first ∨ k = last ∨ k ∈ l}

theorem related_between_nil {R : ℕ → ℕ → Prop} (h : first < last → R first last)
    (hle : first ≤ last) : Related R (between first last []) := by
  have hset : between first last [] = {first, last} := by
    ext k
    simp [between]
  rw [hset]
  rcases hle.eq_or_lt with rfl | hlt
  · exact related_subsingleton (by simp)
  · exact related_pair (h hlt) hlt

/-- It is an induction over the fuel, in which the parts share the index of the split. -/
theorem split_related (hwithin : Within pick) (h : split pick fuel first last = some l)
    (hle : first ≤ last) : Related (Whole pick) (between first last l) := by
  induction fuel generalizing first last l with
  | zero =>
    obtain ⟨rfl, hwhole⟩ | ⟨fuel, middle, left, right, hfuel, -⟩ := split_cases h
    · exact related_between_nil (fun _ => hwhole) hle
    · cases hfuel
  | succ fuel ih =>
    obtain ⟨rfl, hwhole⟩ | ⟨fuel, middle, left, right, hfuel, hlong, hpick, hleft, hright, rfl⟩ :=
      split_cases h
    · exact related_between_nil (fun _ => hwhole) hle
    · cases hfuel
      obtain ⟨hfirst, hlast⟩ := split_middle hwithin h hlong hpick
      have hinside1 := (split_distinct hwithin hleft).2
      have hinside2 := (split_distinct hwithin hright).2
      have hunion : between first last (left ++ right ++ [middle]) =
          between first middle left ∪ between middle last right := by
        ext k
        simp only [between, List.mem_append, List.mem_singleton, Set.mem_union, Set.mem_ofPred_eq]
        tauto
      rw [hunion]
      apply (ih hleft hfirst.le).join (ih hright hlast.le) (.inr (.inl rfl)) (.inl rfl)
      · rintro k (rfl | rfl | hk)
        · exact hfirst.le
        · exact le_refl _
        · exact (hinside1 k hk).2.le
      · rintro k (rfl | rfl | hk)
        · exact le_refl _
        · exact hlast.le
        · exact (hinside2 k hk).1.le

end Splits

end Neighbours
