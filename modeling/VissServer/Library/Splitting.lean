import Mathlib.Data.List.Nodup
import Mathlib.Order.Lattice
import Mathlib.Order.Nat

/-!
The first largest of some measures, and the recursion that splits an interval of indices at a
picked one until none is picked. It ends where every index picked is strictly inside its interval;
an interval that is split at one of its ends is split without end.
-/
namespace Splitting

/-! ## The first largest measure -/

section Peaks

variable {K L : Type*}

/-- The largest measure so far, and where it was found. -/
def exceed [LT K] [DecidableLT K] (measure : ℕ → K) (max : K × ℕ) (i : ℕ) : K × ℕ :=
  if max.1 < measure i then (measure i, i) else max

/-- Either nothing exceeds what the measures are compared with first, or the result is one of
the measures and exceeds it. -/
theorem foldl_exceed_cases [LT K] [DecidableLT K] [IsTrans K (· < ·)] (measure : ℕ → K)
    (l : List ℕ) (max : K × ℕ) :
    l.foldl (exceed measure) max = max ∨
      ∃ i ∈ l, l.foldl (exceed measure) max = (measure i, i) ∧ max.1 < measure i := by
  induction l generalizing max with
  | nil => exact .inl rfl
  | cons e l ih =>
    rw [List.foldl_cons, exceed]
    split
    · next hlt =>
      rcases ih (measure e, e) with hsame | ⟨i, hi, heq, hexceeds⟩
      · exact .inr ⟨e, List.mem_cons_self, hsame, hlt⟩
      · exact .inr ⟨i, List.mem_cons_of_mem e hi, heq, trans_of (· < ·) hlt hexceeds⟩
    · rcases ih max with hsame | ⟨i, hi, heq, hexceeds⟩
      · exact .inl hsame
      · exact .inr ⟨i, List.mem_cons_of_mem e hi, heq, hexceeds⟩

/-- In a linear order the result is the largest measure, at the first index that has it. -/
theorem foldl_exceed_first [LinearOrder K] (measure : ℕ → K) (l : List ℕ)
    (hsorted : l.Pairwise (· < ·)) (max : K × ℕ) :
    (l.foldl (exceed measure) max = max ∧ ∀ j ∈ l, measure j ≤ max.1) ∨
      ∃ i ∈ l, l.foldl (exceed measure) max = (measure i, i) ∧ max.1 < measure i ∧
        (∀ j ∈ l, measure j ≤ measure i) ∧ ∀ j ∈ l, j < i → measure j < measure i := by
  induction l generalizing max with
  | nil => exact .inl ⟨rfl, nofun⟩
  | cons e l ih =>
    obtain ⟨he, hl⟩ := List.pairwise_cons.mp hsorted
    rw [List.foldl_cons, exceed]
    split
    · next hlt =>
      rcases ih hl (measure e, e) with ⟨hsame, hall⟩ | ⟨i, hi, heq, hexceeds, hall, hfirst⟩
      · refine .inr ⟨e, List.mem_cons_self, hsame, hlt, ?_, ?_⟩
        · exact List.forall_mem_cons.mpr ⟨le_refl _, hall⟩
        · refine List.forall_mem_cons.mpr ⟨fun h => absurd h (lt_irrefl e), ?_⟩
          intro j hj hje
          exact absurd (he j hj) hje.not_gt
      · refine .inr ⟨i, List.mem_cons_of_mem e hi, heq, hlt.trans hexceeds, ?_, ?_⟩
        · exact List.forall_mem_cons.mpr ⟨hexceeds.le, hall⟩
        · exact List.forall_mem_cons.mpr ⟨fun _ => hexceeds, hfirst⟩
    · next hle =>
      have hle : measure e ≤ max.1 := not_lt.mp hle
      rcases ih hl max with ⟨hsame, hall⟩ | ⟨i, hi, heq, hexceeds, hall, hfirst⟩
      · exact .inl ⟨hsame, List.forall_mem_cons.mpr ⟨hle, hall⟩⟩
      · refine .inr ⟨i, List.mem_cons_of_mem e hi, heq, hexceeds, ?_, ?_⟩
        · exact List.forall_mem_cons.mpr ⟨(hle.trans_lt hexceeds).le, hall⟩
        · exact List.forall_mem_cons.mpr ⟨fun _ => hle.trans_lt hexceeds, hfirst⟩

/-- Measures that compare alike have their first largest one at the same index. -/
theorem foldl_exceed_agree [LT K] [DecidableLT K] [LT L] [DecidableLT L] {measure : ℕ → K}
    {measure' : ℕ → L} (l : List ℕ) (max : K) (max' : L) (index : ℕ)
    (hmax : ∀ i ∈ l, max < measure i ↔ max' < measure' i)
    (hall : ∀ i ∈ l, ∀ j ∈ l, measure i < measure j ↔ measure' i < measure' j) :
    (l.foldl (exceed measure) (max, index) = (max, index) ∧
        l.foldl (exceed measure') (max', index) = (max', index)) ∨
      ∃ i ∈ l, l.foldl (exceed measure) (max, index) = (measure i, i) ∧
        l.foldl (exceed measure') (max', index) = (measure' i, i) := by
  induction l generalizing max max' index with
  | nil => exact .inl ⟨rfl, rfl⟩
  | cons e l ih =>
    have hrest : ∀ i ∈ l, ∀ j ∈ l, measure i < measure j ↔ measure' i < measure' j :=
      fun i hi j hj => hall i (List.mem_cons_of_mem e hi) j (List.mem_cons_of_mem e hj)
    have hlift : ∀ {p : ℕ → Prop}, (∃ i ∈ l, p i) → ∃ i ∈ e :: l, p i :=
      fun ⟨i, hi, h⟩ => ⟨i, List.mem_cons_of_mem e hi, h⟩
    rw [List.foldl_cons, List.foldl_cons, exceed, exceed]
    by_cases hlt : max < measure e
    · rw [if_pos hlt, if_pos ((hmax e List.mem_cons_self).mp hlt)]
      have hmax' : ∀ i ∈ l, measure e < measure i ↔ measure' e < measure' i :=
        fun i hi => hall e List.mem_cons_self i (List.mem_cons_of_mem e hi)
      rcases ih _ _ e hmax' hrest with hsame | hchanged
      · exact .inr ⟨e, List.mem_cons_self, hsame⟩
      · exact .inr (hlift hchanged)
    · rw [if_neg hlt, if_neg fun hlt' => hlt ((hmax e List.mem_cons_self).mpr hlt')]
      have hmax' : ∀ i ∈ l, max < measure i ↔ max' < measure' i :=
        fun i hi => hmax i (List.mem_cons_of_mem e hi)
      exact (ih max max' index hmax' hrest).imp_right hlift

end Peaks

/-! ## The recursion -/

/-- The indices at which an interval is split, where pick gives the index for an interval, or none
if it is not split. There is no result where pick fails, nor where the fuel is too little. -/
def split (pick : ℕ → ℕ → Option (Option ℕ)) : ℕ → ℕ → ℕ → Option (List ℕ)
  | 0, first, last => if last - first ≤ 1 then some [] else none
  | fuel + 1, first, last =>
      if last - first ≤ 1 then some []
      else do
        match ← pick first last with
        | none => some []
        | some middle => do
            let left ← split pick fuel first middle
            let right ← split pick fuel middle last
            some (left ++ right ++ [middle])

section Splits

variable {pick : ℕ → ℕ → Option (Option ℕ)} {fuel first last middle k : ℕ} {l : List ℕ}

theorem split_short (h : last - first ≤ 1) : split pick fuel first last = some [] := by
  cases fuel <;> rw [split, if_pos h]

theorem split_whole (h : ¬ last - first ≤ 1) (hpick : pick first last = some none) :
    split pick (fuel + 1) first last = some [] := by
  rw [split, if_neg h, hpick]
  rfl

theorem split_at (h : ¬ last - first ≤ 1) (hpick : pick first last = some (some middle)) :
    split pick (fuel + 1) first last = (do
      let left ← split pick fuel first middle
      let right ← split pick fuel middle last
      some (left ++ right ++ [middle])) := by
  rw [split, if_neg h, hpick]
  rfl

theorem split_congr {pick' : ℕ → ℕ → Option (Option ℕ)}
    (h : ∀ a b, 1 < b - a → pick a b = pick' a b) (fuel first last : ℕ) :
    split pick fuel first last = split pick' fuel first last := by
  induction fuel generalizing first last with
  | zero => rfl
  | succ fuel ih =>
    by_cases hshort : last - first ≤ 1
    · rw [split_short hshort, split_short hshort]
    · rw [split, split, if_neg hshort, if_neg hshort, h first last (by omega)]
      cases pick' first last with
      | none => rfl
      | some middle =>
        cases middle with
        | none => rfl
        | some middle => simp only [Option.bind_eq_bind, Option.bind_some, ih]

/-- How a result comes about. -/
theorem split_cases (h : split pick fuel first last = some l) :
    (l = [] ∧ (last - first ≤ 1 ∨ pick first last = some none)) ∨
      ∃ fuel' middle left right, fuel = fuel' + 1 ∧ 1 < last - first ∧
        pick first last = some (some middle) ∧ split pick fuel' first middle = some left ∧
        split pick fuel' middle last = some right ∧ l = left ++ right ++ [middle] := by
  by_cases hshort : last - first ≤ 1
  · rw [split_short hshort] at h
    exact .inl ⟨(Option.some.inj h).symm, .inl hshort⟩
  · cases fuel with
    | zero =>
      rw [split, if_neg hshort] at h
      exact nomatch h
    | succ fuel =>
      match hpick : pick first last with
      | none =>
        rw [split, if_neg hshort, hpick] at h
        exact nomatch h
      | some none =>
        rw [split_whole hshort hpick] at h
        exact .inl ⟨(Option.some.inj h).symm, .inr rfl⟩
      | some (some middle) =>
        rw [split_at hshort hpick] at h
        simp only [Option.bind_eq_bind, Option.bind_eq_some_iff, Option.some.injEq] at h
        obtain ⟨left, hleft, right, hright, rfl⟩ := h
        exact .inr ⟨fuel, middle, left, right, rfl, by omega, rfl, hleft, hright, rfl⟩

/-- An interval that is split at one of its ends comes back in its own recursion. -/
theorem split_stuck (hlong : 1 < last - first) (hpick : pick first last = some (some middle))
    (hend : middle = first ∨ middle = last) (fuel : ℕ) : split pick fuel first last = none := by
  induction fuel with
  | zero => rw [split, if_neg (by omega)]
  | succ fuel ih =>
    rw [split_at (by omega) hpick]
    rcases hend with rfl | rfl
    · rw [ih]
      cases split pick fuel middle middle <;> rfl
    · rw [ih]
      rfl

/-- No interval is split outside its ends. -/
def Within (pick : ℕ → ℕ → Option (Option ℕ)) : Prop :=
  ∀ first last middle, first ≤ last → pick first last = some (some middle) →
    first ≤ middle ∧ middle ≤ last

theorem split_middle (hwithin : Within pick) (h : split pick fuel first last = some l)
    (hlong : 1 < last - first) (hpick : pick first last = some (some middle)) :
    first < middle ∧ middle < last := by
  have hend : ∀ {m}, pick first last = some (some m) → m = first ∨ m = last → False := by
    intro m hpick hend
    rw [split_stuck hlong hpick hend fuel] at h
    exact nomatch h
  obtain ⟨hfirst, hlast⟩ := hwithin first last middle (by omega) hpick
  constructor
  · exact hfirst.lt_of_ne fun heq => hend hpick (.inl heq.symm)
  · exact hlast.lt_of_ne fun heq => hend hpick (.inr heq)

/-- The indices of a result are distinct, and strictly inside the interval. -/
theorem split_distinct (hwithin : Within pick) (h : split pick fuel first last = some l) :
    l.Nodup ∧ ∀ k ∈ l, first < k ∧ k < last := by
  induction fuel generalizing first last l with
  | zero =>
    obtain ⟨rfl, -⟩ | ⟨fuel, middle, left, right, hfuel, -⟩ := split_cases h
    · exact ⟨List.nodup_nil, nofun⟩
    · exact nomatch hfuel
  | succ fuel ih =>
    obtain ⟨rfl, -⟩ | ⟨fuel, middle, left, right, hfuel, hlong, hpick, hleft, hright, rfl⟩ :=
      split_cases h
    · exact ⟨List.nodup_nil, nofun⟩
    · cases hfuel
      obtain ⟨hfirst, hlast⟩ := split_middle hwithin h hlong hpick
      obtain ⟨hnodup1, hinside1⟩ := ih hleft
      obtain ⟨hnodup2, hinside2⟩ := ih hright
      have hinside : ∀ k ∈ left ++ right ++ [middle], first < k ∧ k < last := by
        intro k hk
        simp only [List.mem_append, List.mem_singleton] at hk
        rcases hk with (hk | hk) | rfl
        · have hin := hinside1 k hk
          omega
        · have hin := hinside2 k hk
          omega
        · exact ⟨hfirst, hlast⟩
      refine ⟨?_, hinside⟩
      simp only [List.nodup_append, hnodup1, hnodup2, List.nodup_singleton, List.mem_append,
        List.mem_singleton, true_and]
      constructor
      · intro a ha b hb
        have hin1 := hinside1 a ha
        have hin2 := hinside2 b hb
        omega
      · rintro a (ha | ha) b rfl
        · have hin := hinside1 a ha
          omega
        · have hin := hinside2 a ha
          omega

/-- Each index of a result was picked for an interval around it. -/
theorem split_picked (hwithin : Within pick) (h : split pick fuel first last = some l)
    (hk : k ∈ l) :
    ∃ a b, first ≤ a ∧ b ≤ last ∧ a < k ∧ k < b ∧ pick a b = some (some k) := by
  induction fuel generalizing first last l with
  | zero =>
    obtain ⟨rfl, -⟩ | ⟨fuel, middle, left, right, hfuel, -⟩ := split_cases h
    · exact nomatch hk
    · exact nomatch hfuel
  | succ fuel ih =>
    obtain ⟨rfl, -⟩ | ⟨fuel, middle, left, right, hfuel, hlong, hpick, hleft, hright, rfl⟩ :=
      split_cases h
    · exact nomatch hk
    · cases hfuel
      obtain ⟨hfirst, hlast⟩ := split_middle hwithin h hlong hpick
      simp only [List.mem_append, List.mem_singleton] at hk
      rcases hk with (hk | hk) | rfl
      · obtain ⟨a, b, ha, hb, hak, hkb, hpicked⟩ := ih hleft hk
        exact ⟨a, b, ha, by omega, hak, hkb, hpicked⟩
      · obtain ⟨a, b, ha, hb, hak, hkb, hpicked⟩ := ih hright hk
        exact ⟨a, b, by omega, hb, hak, hkb, hpicked⟩
      · exact ⟨first, last, le_refl _, le_refl _, hfirst, hlast, hpick⟩

/-- If every interval is split, then at every index inside. -/
theorem split_everywhere (hwithin : Within pick) (h : split pick fuel first last = some l)
    (hall : ∀ a b, first ≤ a → b ≤ last → 1 < b - a → pick a b ≠ some none) (hfirst : first < k)
    (hlast : k < last) : k ∈ l := by
  induction fuel generalizing first last l with
  | zero =>
    obtain ⟨-, hshort | hpick⟩ | ⟨fuel, middle, left, right, hfuel, -⟩ := split_cases h
    · omega
    · exact absurd hpick (hall first last (le_refl _) (le_refl _) (by omega))
    · exact nomatch hfuel
  | succ fuel ih =>
    obtain ⟨-, hshort | hpick⟩ | ⟨fuel, middle, left, right, hfuel, hlong, hpick, hleft, hright,
      rfl⟩ := split_cases h
    · omega
    · exact absurd hpick (hall first last (le_refl _) (le_refl _) (by omega))
    · cases hfuel
      obtain ⟨hinside1, hinside2⟩ := split_middle hwithin h hlong hpick
      simp only [List.mem_append, List.mem_singleton]
      rcases lt_trichotomy k middle with hlt | rfl | hgt
      · exact .inl (.inl (ih hleft (fun a b ha hb => hall a b ha (by omega)) hfirst hlt))
      · exact .inr rfl
      · exact .inl (.inr (ih hright (fun a b ha hb => hall a b (by omega) hb) hgt hlast))

/-- A recursion that ends needs no more fuel than the interval is long. -/
theorem split_enough (hwithin : Within pick) (h : split pick fuel first last = some l)
    {fuel' : ℕ} (hfuel : last - first ≤ fuel') : split pick fuel' first last = some l := by
  induction fuel generalizing first last l fuel' with
  | zero =>
    obtain ⟨rfl, hshort | -⟩ | ⟨fuel, middle, left, right, hfuel, -⟩ := split_cases h
    · exact split_short hshort
    · by_cases hshort : last - first ≤ 1
      · exact split_short hshort
      · rw [split, if_neg hshort] at h
        exact nomatch h
    · exact nomatch hfuel
  | succ fuel ih =>
    obtain ⟨rfl, hshort | hpick⟩ | ⟨fuel, middle, left, right, hsucc, hlong, hpick, hleft, hright,
      rfl⟩ := split_cases h
    · exact split_short hshort
    · by_cases hshort : last - first ≤ 1
      · exact split_short hshort
      · cases fuel' with
        | zero => omega
        | succ fuel' => exact split_whole hshort hpick
    · cases hsucc
      obtain ⟨hbefore, hafter⟩ := split_middle hwithin h hlong hpick
      cases fuel' with
      | zero => omega
      | succ fuel' =>
        rw [split_at (by omega) hpick, ih hleft (by omega), ih hright (by omega)]
        rfl

/-- The recursion ends where pick gives indices strictly inside. -/
theorem split_total {m n : ℕ} (hpick : ∀ a b, 1 < b - a → m ≤ a → b ≤ n →
      pick a b = some none ∨ ∃ middle, pick a b = some (some middle) ∧ a < middle ∧ middle < b)
    (hfirst : m ≤ first) (hlast : last ≤ n) (hfuel : last - first ≤ fuel) :
    ∃ l, split pick fuel first last = some l := by
  induction fuel generalizing first last with
  | zero => exact ⟨[], split_short (by omega)⟩
  | succ fuel ih =>
    by_cases hshort : last - first ≤ 1
    · exact ⟨[], split_short hshort⟩
    · rcases hpick first last (by omega) hfirst hlast with hnone | ⟨middle, hsome, hbefore, hafter⟩
      · exact ⟨[], split_whole hshort hnone⟩
      · obtain ⟨left, hleft⟩ := ih hfirst (show middle ≤ n by omega) (by omega)
        obtain ⟨right, hright⟩ := ih (show m ≤ middle by omega) hlast (by omega)
        refine ⟨left ++ right ++ [middle], ?_⟩
        rw [split_at hshort hsome, hleft, hright]
        rfl

end Splits

end Splitting
