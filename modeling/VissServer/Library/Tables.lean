import Mathlib.Logic.Function.Basic

/-!
Tables whose cells hold a key or are free, and tables in which no two cells hold
the same key. A cell is freed, filled with a key, or its key moves to a free cell.
Where the keys are the numbers of owners, the cells are held by the live ones: an owner
starts with a free cell, and frees it when it stops.
-/
namespace Tables

variable {ι κ : Type*} [DecidableEq ι] {free : κ} {key : ι → κ}

/-- No two cells hold the same key. -/
def Unique (free : κ) (key : ι → κ) : Prop :=
  ∀ i j, key i ≠ free → key i = key j → i = j

omit [DecidableEq ι] in
theorem unique_of_free (hfree : ∀ i, key i = free) : Unique free key :=
  fun i _ hi _ => absurd (hfree i) hi

theorem Unique.update_free (h : Unique free key) (i : ι) :
    Unique free (Function.update key i free) := by
  intro a b ha hab
  by_cases hai : a = i
  · subst hai
    simp at ha
  · by_cases hbi : b = i
    · subst hbi
      simp only [Function.update_of_ne hai, Function.update_self] at ha hab
      exact absurd hab ha
    · simp only [Function.update_of_ne hai, Function.update_of_ne hbi] at ha hab
      exact h a b ha hab

/-- Filling a free cell keeps the keys apart exactly when the key is new. -/
theorem unique_update_iff {i : ι} {k : κ} (hi : key i = free) (hk : k ≠ free) :
    Unique free (Function.update key i k) ↔ Unique free key ∧ ∀ j, key j ≠ k := by
  constructor
  · intro h
    have hnew : ∀ j, key j ≠ k := by
      intro j hj
      have hji : j ≠ i := by
        rintro rfl
        exact hk (hj.symm.trans hi)
      have hlive : Function.update key i k i ≠ free := by
        simpa only [Function.update_self] using hk
      refine hji (h i j hlive ?_).symm
      rw [Function.update_self, Function.update_of_ne hji, hj]
    refine ⟨fun a b ha hab => ?_, hnew⟩
    have hai : a ≠ i := by
      rintro rfl
      exact ha hi
    have hbi : b ≠ i := by
      rintro rfl
      exact ha (hab.trans hi)
    refine h a b ?_ ?_
    · rwa [Function.update_of_ne hai]
    · rwa [Function.update_of_ne hai, Function.update_of_ne hbi]
  · rintro ⟨h, hnew⟩ a b ha hab
    by_cases hai : a = i
    · by_cases hbi : b = i
      · rw [hai, hbi]
      · subst hai
        rw [Function.update_self, Function.update_of_ne hbi] at hab
        exact absurd hab.symm (hnew b)
    · by_cases hbi : b = i
      · subst hbi
        rw [Function.update_self, Function.update_of_ne hai] at hab
        exact absurd hab (hnew a)
      · rw [Function.update_of_ne hai] at ha hab
        rw [Function.update_of_ne hbi] at hab
        exact h a b ha hab

/-- A key that moves to another cell stays unique. -/
theorem Unique.move (h : Unique free key) {i j : ι} (hj : Function.update key i free j = free) :
    Unique free (Function.update (Function.update key i free) j (key i)) := by
  by_cases hi : key i = free
  · rw [hi]
    exact (h.update_free i).update_free j
  · refine (unique_update_iff hj hi).mpr ⟨h.update_free i, fun a ha => ?_⟩
    by_cases hai : a = i
    · subst hai
      rw [Function.update_self] at ha
      exact hi ha.symm
    · rw [Function.update_of_ne hai] at ha
      exact hai (h i a hi ha.symm).symm

omit [DecidableEq ι] in
/-- Where all keys are the same, at most one cell is not free. -/
theorem Unique.free_or_free (h : Unique free key) {k : κ}
    (hkeys : ∀ i, key i = free ∨ key i = k) {i j : ι} (hij : i ≠ j) :
    key i = free ∨ key j = free := by
  by_contra hcon
  obtain ⟨hi, hj⟩ := not_or.mp hcon
  exact hij (h i j hi (((hkeys i).resolve_left hi).trans ((hkeys j).resolve_left hj).symm))

section Owners

variable {α : Type*} {number : α → κ} {Live Live' : α → Prop} {o : α} {i j : ι}

/-- Every live owner holds exactly one cell, by its number, and every cell that is not free
belongs to exactly one live owner. -/
structure Owned (free : κ) (key : ι → κ) (number : α → κ) (Live : α → Prop) : Prop where
  nonfree : ∀ o, Live o → number o ≠ free
  holds : ∀ o, Live o → ∃! i, key i = number o
  owner : ∀ i, key i ≠ free → ∃! o, Live o ∧ number o = key i

omit [DecidableEq ι] in
theorem owned_of_free (hfree : ∀ i, key i = free) (hlive : ∀ o, ¬ Live o) :
    Owned free key number Live where
  nonfree o ho := absurd ho (hlive o)
  holds o ho := absurd ho (hlive o)
  owner i hi := absurd (hfree i) hi

omit [DecidableEq ι] in
theorem Owned.eq_of_key (h : Owned free key number Live) (ho : Live o) (hi : key i = number o)
    (hj : key j = number o) : i = j :=
  (h.holds o ho).unique hi hj

omit [DecidableEq ι] in
theorem Owned.eq_of_number (h : Owned free key number Live) {o' : α} (ho : Live o)
    (ho' : Live o') (hnumber : number o' = number o) : o' = o := by
  obtain ⟨i, hi, -⟩ := h.holds o ho
  have hused : key i ≠ free := hi ▸ h.nonfree o ho
  exact (h.owner i hused).unique ⟨ho', hnumber.trans hi.symm⟩ ⟨ho, hi.symm⟩

omit [DecidableEq ι] in
theorem Owned.congr (h : Owned free key number Live) (hlive : ∀ o, Live' o ↔ Live o) :
    Owned free key number Live' := by
  obtain rfl : Live' = Live := funext fun o => propext (hlive o)
  exact h

/-- A new owner takes a free cell. -/
theorem Owned.start (h : Owned free key number Live) (hi : key i = free)
    (hnumber : number o ≠ free) (hnew : ∀ o', Live o' → number o' ≠ number o)
    (hlive : ∀ o', Live' o' ↔ Live o' ∨ o' = o) :
    Owned free (Function.update key i (number o)) number Live' := by
  have hunused : ∀ j, key j ≠ number o := by
    intro j hj
    obtain ⟨o', ⟨ho', hnumber'⟩, -⟩ := h.owner j (hj ▸ hnumber)
    exact hnew o' ho' (hnumber'.trans hj)
  refine ⟨?_, ?_, ?_⟩
  · intro o' ho'
    rcases (hlive o').mp ho' with ho' | rfl
    · exact h.nonfree o' ho'
    · exact hnumber
  · intro o' ho'
    rcases (hlive o').mp ho' with ho' | rfl
    · obtain ⟨j, hj, hunique⟩ := h.holds o' ho'
      have hji : j ≠ i := by
        rintro rfl
        exact h.nonfree o' ho' (hj.symm.trans hi)
      refine ⟨j, by simpa only [Function.update_of_ne hji] using hj, fun k hk => ?_⟩
      by_cases hki : k = i
      · subst hki
        rw [Function.update_self] at hk
        exact absurd hk.symm (hnew o' ho')
      · dsimp only at hk
        rw [Function.update_of_ne hki] at hk
        exact hunique k hk
    · refine ⟨i, Function.update_self .., fun k hk => ?_⟩
      by_contra hki
      dsimp only at hk
      rw [Function.update_of_ne hki] at hk
      exact hunused k hk
  · intro j hj
    by_cases hji : j = i
    · subst hji
      rw [Function.update_self]
      refine ⟨o, ⟨(hlive o).mpr (.inr rfl), rfl⟩, fun o' ho' => ?_⟩
      exact ((hlive o').mp ho'.1).resolve_left fun hold => hnew o' hold ho'.2
    · rw [Function.update_of_ne hji] at hj ⊢
      obtain ⟨o', ⟨ho', hnumber'⟩, hunique⟩ := h.owner j hj
      refine ⟨o', ⟨(hlive o').mpr (.inl ho'), hnumber'⟩, fun o'' ho'' => ?_⟩
      rcases (hlive o'').mp ho''.1 with hold | rfl
      · exact hunique o'' ⟨hold, ho''.2⟩
      · exact absurd ho''.2.symm (hunused j)

/-- A live owner frees its cell. -/
theorem Owned.stop (h : Owned free key number Live) (ho : Live o) (hi : key i = number o)
    (hlive : ∀ o', Live' o' ↔ Live o' ∧ o' ≠ o) :
    Owned free (Function.update key i free) number Live' := by
  refine ⟨fun o' ho' => h.nonfree o' ((hlive o').mp ho').1, ?_, ?_⟩
  · intro o' ho'
    obtain ⟨hold, hne⟩ := (hlive o').mp ho'
    obtain ⟨j, hj, hunique⟩ := h.holds o' hold
    have hji : j ≠ i := by
      rintro rfl
      exact hne (h.eq_of_number ho hold (hj.symm.trans hi))
    refine ⟨j, by simpa only [Function.update_of_ne hji] using hj, fun k hk => ?_⟩
    by_cases hki : k = i
    · subst hki
      rw [Function.update_self] at hk
      exact absurd hk.symm (h.nonfree o' hold)
    · dsimp only at hk
      rw [Function.update_of_ne hki] at hk
      exact hunique k hk
  · intro j hj
    have hji : j ≠ i := by
      rintro rfl
      exact hj (Function.update_self ..)
    rw [Function.update_of_ne hji] at hj ⊢
    obtain ⟨o', ⟨ho', hnumber⟩, hunique⟩ := h.owner j hj
    have hne : o' ≠ o := by
      rintro rfl
      exact hji (h.eq_of_key ho hnumber.symm hi)
    refine ⟨o', ⟨(hlive o').mpr ⟨ho', hne⟩, hnumber⟩, fun o'' ho'' => ?_⟩
    exact hunique o'' ⟨((hlive o'').mp ho''.1).1, ho''.2⟩

end Owners

end Tables
