import Mathlib.Tactic.Common

/-!
Binary search, as the function sort.Search does it.
-/
namespace VissServer.Go

variable {f : ℕ → Bool}

/-- The loop of sort.Search; each round halves the interval from i to j. -/
def searchFrom (f : ℕ → Bool) : ℕ → ℕ → ℕ → ℕ
  | 0, i, _ => i
  | rounds + 1, i, j =>
      if i < j then
        let h := (i + j) / 2
        if f h then searchFrom f rounds i h else searchFrom f rounds (h + 1) j
      else i

/-- sort.Search; the interval is empty after at most n rounds. -/
def search (n : ℕ) (f : ℕ → Bool) : ℕ := searchFrom f n 0 n

theorem searchFrom_splits {n rounds i j : ℕ}
    (hmono : ∀ a b, a ≤ b → b < n → f a = true → f b = true) (hij : i ≤ j) (hjn : j ≤ n)
    (hrounds : j ≤ i + rounds) (hbefore : ∀ a < i, f a = false)
    (hfrom : ∀ a, j ≤ a → a < n → f a = true) :
    searchFrom f rounds i j ≤ n ∧ (∀ a < searchFrom f rounds i j, f a = false) ∧
      ∀ a, searchFrom f rounds i j ≤ a → a < n → f a = true := by
  induction rounds generalizing i j with
  | zero =>
    obtain rfl : i = j := by omega
    exact ⟨hjn, hbefore, hfrom⟩
  | succ rounds ih =>
    rw [searchFrom]
    split
    · next hlt =>
      dsimp only
      split
      · next hh =>
        apply ih (by omega) (by omega) (by omega) hbefore
        intro a ha han
        exact hmono _ a ha han hh
      · next hh =>
        apply ih (by omega) hjn (by omega) _ hfrom
        intro a ha
        by_contra hfa
        have hle : a ≤ (i + j) / 2 := by omega
        exact hh (hmono a _ hle (by omega) (by simpa using hfa))
    · next hge =>
      obtain rfl : i = j := by omega
      exact ⟨hjn, hbefore, hfrom⟩

/-- The least index from which on the predicate holds. -/
theorem search_splits {n : ℕ} (hmono : ∀ a b, a ≤ b → b < n → f a = true → f b = true) :
    search n f ≤ n ∧ (∀ a < search n f, f a = false) ∧
      ∀ a, search n f ≤ a → a < n → f a = true := by
  apply searchFrom_splits hmono (Nat.zero_le n) (Nat.le_refl n) (by omega)
  · intro a ha
    omega
  · intro a ha han
    omega

end VissServer.Go
