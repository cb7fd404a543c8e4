import Mathlib.Data.List.Forall2

/-!
Traversals of a list whose steps may fail, and searches in it. A traversal has results where each
step has one, and its results are those of the steps; a search that ends early does not look at
the rest.
-/
namespace Traversals

/-! ## Results -/

section Results

variable {α β : Type*} {f : α → Option β} {g : α → β} {as : List α} {bs : List β}

theorem mapM_eq_some_iff :
    as.mapM f = some bs ↔ List.Forall₂ (fun a b => f a = some b) as bs := by
  induction as generalizing bs with
  | nil =>
    rw [List.forall₂_nil_left_iff, List.mapM_nil, eq_comm]
    exact Option.some_inj
  | cons a as ih =>
    simp only [List.mapM_cons, Option.bind_eq_bind, Option.bind_eq_some_iff, Option.pure_def,
      Option.some.injEq, ih]
    constructor
    · rintro ⟨b, hb, rest, hrest, rfl⟩
      exact .cons hb hrest
    · intro h
      obtain ⟨b, rest, hb, hrest, rfl⟩ := List.forall₂_cons_left_iff.mp h
      exact ⟨b, hb, rest, hrest, rfl⟩

/-- Each element of the one list is related to one of the other. -/
theorem exists_of_forall₂ {R : α → β → Prop} (h : List.Forall₂ R as bs) :
    ∀ a ∈ as, ∃ b ∈ bs, R a b := by
  induction h with
  | nil => exact List.forall_mem_nil _
  | cons hab _ ih =>
    refine List.forall_mem_cons.mpr ⟨⟨_, List.mem_cons_self, hab⟩, fun a ha => ?_⟩
    obtain ⟨b, hb, hR⟩ := ih a ha
    exact ⟨b, List.mem_cons_of_mem _ hb, hR⟩

/-- A traversal has results where each step has one. -/
theorem isSome_mapM_iff : (as.mapM f).isSome ↔ ∀ a ∈ as, (f a).isSome := by
  constructor
  · intro h a ha
    obtain ⟨bs, hbs⟩ := Option.isSome_iff_exists.mp h
    obtain ⟨b, -, hb⟩ := exists_of_forall₂ (mapM_eq_some_iff.mp hbs) a ha
    exact Option.isSome_of_eq_some hb
  · intro h
    induction as with
    | nil => rfl
    | cons a as ih =>
      obtain ⟨ha, has⟩ := List.forall_mem_cons.mp h
      obtain ⟨b, hb⟩ := Option.isSome_iff_exists.mp ha
      obtain ⟨bs, hbs⟩ := Option.isSome_iff_exists.mp (ih has)
      rw [List.mapM_cons, hb, hbs]
      rfl

theorem mapM_eq_none {a : α} (ha : a ∈ as) (h : f a = none) : as.mapM f = none := by
  rw [← Option.not_isSome_iff_eq_none, isSome_mapM_iff]
  intro hall
  have hsome := hall a ha
  rw [h] at hsome
  cases hsome

/-- The results, each of which is what a step gave. -/
theorem map_some_of_mapM (h : as.mapM f = some bs) : bs.map some = as.map f := by
  rw [mapM_eq_some_iff] at h
  induction h with
  | nil => rfl
  | cons hab _ ih => rw [List.map_cons, List.map_cons, hab, ih]

theorem mem_of_mapM (h : as.mapM f = some bs) {b : β} : b ∈ bs ↔ ∃ a ∈ as, f a = some b := by
  have hmem : b ∈ bs ↔ some b ∈ bs.map some := by simp
  rw [hmem, map_some_of_mapM h, List.mem_map]

theorem length_of_mapM (h : as.mapM f = some bs) : bs.length = as.length :=
  (mapM_eq_some_iff.mp h).length_eq.symm

/-- A traversal in which no step fails is a map. -/
theorem mapM_eq_map (h : ∀ a ∈ as, f a = some (g a)) : as.mapM f = some (as.map g) := by
  rw [mapM_eq_some_iff, List.forall₂_map_right_iff, List.forall₂_same]
  exact h

theorem eq_map_of_mapM (hstep : ∀ a b, f a = some b → b = g a) (h : as.mapM f = some bs) :
    bs = as.map g := by
  rw [mapM_eq_some_iff] at h
  induction h with
  | nil => rfl
  | cons hab _ ih => rw [List.map_cons, hstep _ _ hab, ih]

/-- What was made from a list is read back from it. -/
theorem mapM_map_self {make : β → α} (h : ∀ b, f (make b) = some b) :
    (bs.map make).mapM f = some bs := by
  rw [mapM_eq_some_iff, List.forall₂_map_left_iff, List.forall₂_same]
  exact fun b _ => h b

end Results

/-! ## Searches -/

section Searches

variable {α : Type*} {f : α → Option Bool} {g : α → Bool} {l : List α}

theorem isSome_anyM (h : ∀ x ∈ l, (f x).isSome) : (l.anyM f).isSome := by
  induction l with
  | nil => simp
  | cons a l ih =>
    obtain ⟨b, hb⟩ := Option.isSome_iff_exists.mp (h a List.mem_cons_self)
    have hrest := ih fun x hx => h x (List.mem_cons_of_mem a hx)
    cases b with
    | true => simp [hb]
    | false => simpa [hb] using hrest

/-- A search that finds nothing looks at every element. -/
theorem anyM_of_ne_true (h : ∀ x ∈ l, f x ≠ some true) :
    l.anyM f ≠ some true ∧ ((l.anyM f).isSome ↔ ∀ x ∈ l, (f x).isSome) := by
  induction l with
  | nil => simp
  | cons a l ih =>
    have hrest := ih fun x hx => h x (List.mem_cons_of_mem a hx)
    cases ha : f a with
    | none => simp [ha]
    | some b =>
      cases b with
      | true => exact absurd ha (h a List.mem_cons_self)
      | false => simpa [ha] using hrest

theorem anyM_ne_true (h : ∀ x ∈ l, f x ≠ some true) : l.anyM f ≠ some true :=
  (anyM_of_ne_true h).1

theorem isSome_anyM_iff (h : ∀ x ∈ l, f x ≠ some true) :
    (l.anyM f).isSome ↔ ∀ x ∈ l, (f x).isSome :=
  (anyM_of_ne_true h).2

/-- A search in which no step fails is one over the outcomes. -/
theorem anyM_eq_some (h : ∀ x ∈ l, f x = some (g x)) : l.anyM f = some (l.any g) := by
  induction l with
  | nil => rfl
  | cons a l ih =>
    have hrest := ih fun x hx => h x (List.mem_cons_of_mem a hx)
    rw [List.anyM_cons, h a List.mem_cons_self, List.any_cons]
    cases g a with
    | true => rfl
    | false => simpa using hrest

end Searches

end Traversals
