import Mathlib.Data.Fintype.EquivFin
import Mathlib.Logic.Function.Basic

/-!
Ids that are given to slots. One table marks the ids in use, another table says which id
each slot holds; they agree where the used ids are the held ones, each held by one slot.
-/
namespace Holders

variable {ι κ : Type*} {used : ι → Prop} {holder : κ → Option ι} {i : ι} {k : κ}

structure Agree (used : ι → Prop) (holder : κ → Option ι) : Prop where
  used_iff : ∀ i, used i ↔ ∃ k, holder k = some i
  unique : ∀ k k' i, holder k = some i → holder k' = some i → k = k'

/-- A free slot takes an unused id. -/
theorem Agree.take [DecidableEq κ] (h : Agree used holder) (hi : ¬ used i)
    (hk : holder k = none) :
    Agree (fun i' => used i' ∨ i' = i) (Function.update holder k (some i)) where
  used_iff i' := by
    rw [h.used_iff i']
    constructor
    · intro hused
      rcases hused with ⟨k', hk'⟩ | rfl
      · have hne : k' ≠ k := fun heq => by simp [heq, hk] at hk'
        exact ⟨k', by rw [Function.update_of_ne hne, hk']⟩
      · exact ⟨k, Function.update_self ..⟩
    · intro hheld
      obtain ⟨k', hk'⟩ := hheld
      by_cases heq : k' = k
      · rw [heq, Function.update_self] at hk'
        exact .inr (Option.some.inj hk').symm
      · rw [Function.update_of_ne heq] at hk'
        exact .inl ⟨k', hk'⟩
  unique k₁ k₂ i' h₁ h₂ := by
    have hnew : ∀ k', holder k' ≠ some i := fun k' hk' => hi ((h.used_iff i).mpr ⟨k', hk'⟩)
    by_cases heq₁ : k₁ = k
    · by_cases heq₂ : k₂ = k
      · rw [heq₁, heq₂]
      · rw [heq₁, Function.update_self] at h₁
        rw [Function.update_of_ne heq₂, ← h₁] at h₂
        exact absurd h₂ (hnew k₂)
    · rw [Function.update_of_ne heq₁] at h₁
      by_cases heq₂ : k₂ = k
      · rw [heq₂, Function.update_self] at h₂
        rw [← h₂] at h₁
        exact absurd h₁ (hnew k₁)
      · rw [Function.update_of_ne heq₂] at h₂
        exact h.unique k₁ k₂ i' h₁ h₂

/-- The slot of an id gives it back. -/
theorem Agree.release [DecidableEq κ] (h : Agree used holder) (hk : holder k = some i) :
    Agree (fun i' => used i' ∧ i' ≠ i) (Function.update holder k none) where
  used_iff i' := by
    rw [h.used_iff i']
    constructor
    · intro hused
      obtain ⟨⟨k', hk'⟩, hne⟩ := hused
      have hslot : k' ≠ k := by
        intro heq
        rw [heq, hk] at hk'
        exact hne (Option.some.inj hk').symm
      exact ⟨k', by rw [Function.update_of_ne hslot, hk']⟩
    · intro hheld
      obtain ⟨k', hk'⟩ := hheld
      by_cases heq : k' = k
      · simp [heq] at hk'
      · rw [Function.update_of_ne heq] at hk'
        refine ⟨⟨k', hk'⟩, ?_⟩
        intro hi
        rw [hi] at hk'
        exact heq (h.unique k' k i hk' hk)
  unique k₁ k₂ i' h₁ h₂ := by
    have hheld : ∀ k', Function.update holder k none k' = some i' → holder k' = some i' := by
      intro k' hk'
      by_cases heq : k' = k
      · simp [heq] at hk'
      · rwa [Function.update_of_ne heq] at hk'
    exact h.unique k₁ k₂ i' (hheld k₁ h₁) (hheld k₂ h₂)

/-- While one of as many ids as slots is unused, a slot is free. -/
theorem Agree.exists_free [Finite κ] (h : Agree used holder) {marks : κ → ι}
    (hmarks : ∀ i, used i → ∃ k, marks k = i) (hfree : ¬ used (marks k)) :
    ∃ k', holder k' = none := by
  by_contra hnone
  have hheld : ∀ k', ∃ m, holder k' = some (marks m) := by
    intro k'
    obtain ⟨i', hi'⟩ := Option.ne_none_iff_exists'.mp fun heq => hnone ⟨k', heq⟩
    obtain ⟨m, hm⟩ := hmarks i' ((h.used_iff i').mpr ⟨k', hi'⟩)
    exact ⟨m, by rw [hi', hm]⟩
  choose mark hmark using hheld
  have hinj : Function.Injective mark := by
    intro k₁ k₂ heq
    apply h.unique k₁ k₂ (marks (mark k₁)) (hmark k₁)
    rw [heq, hmark k₂]
  obtain ⟨k', hk'⟩ := (Finite.injective_iff_surjective.mp hinj) k
  apply hfree
  rw [h.used_iff]
  exact ⟨k', by rw [hmark, hk']⟩

end Holders
