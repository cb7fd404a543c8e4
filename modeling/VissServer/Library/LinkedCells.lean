import Mathlib.Data.List.Nodup

/-!
Linked lists in a memory of cells. A chain leads from one link to another one through cells that
it visits in their order. It stays a chain when cells are allocated, and when cells that it does
not visit are written; where its last cell is written, it leads elsewhere.
-/
namespace LinkedCells

variable {α : Type*}

structure Cell (α : Type*) where
  value : α
  next : Option ℕ

/-- The address of a cell is its position. -/
abbrev Memory (α : Type*) := List (Cell α)

/-- The cells from one link to another one, each with its address and its value. -/
def Chain (memory : Memory α) : Option ℕ → List (ℕ × α) → Option ℕ → Prop
  | start, [], stop => start = stop
  | start, (a, v) :: cells, stop =>
      start = some a ∧ ∃ next, memory[a]? = some ⟨v, next⟩ ∧ Chain memory next cells stop

variable {memory : Memory α} {start stop : Option ℕ} {cells front back : List (ℕ × α)}

theorem chain_append :
    Chain memory start (front ++ back) stop ↔
      ∃ mid, Chain memory start front mid ∧ Chain memory mid back stop := by
  induction front generalizing start with
  | nil => simp [Chain]
  | cons cell front ih =>
    obtain ⟨a, v⟩ := cell
    simp only [List.cons_append, Chain, ih]
    constructor
    · rintro ⟨hstart, next, hcell, mid, hfront, hback⟩
      exact ⟨mid, ⟨hstart, next, hcell, hfront⟩, hback⟩
    · rintro ⟨mid, ⟨hstart, next, hcell, hfront⟩, hback⟩
      exact ⟨hstart, next, hcell, mid, hfront, hback⟩

/-- A chain that ends with a cell leads to where that cell points. -/
theorem chain_concat {a : ℕ} {v : α} :
    Chain memory start (front ++ [(a, v)]) stop ↔
      Chain memory start front (some a) ∧ memory[a]? = some ⟨v, stop⟩ := by
  rw [chain_append]
  constructor
  · rintro ⟨mid, hfront, hmid, next, hcell, hnext⟩
    rw [← hnext, ← hmid]
    exact ⟨hfront, hcell⟩
  · rintro ⟨hfront, hcell⟩
    exact ⟨some a, hfront, rfl, stop, hcell, rfl⟩

theorem Chain.lt_length (h : Chain memory start cells stop) :
    ∀ a ∈ cells.map Prod.fst, a < memory.length := by
  induction cells generalizing start with
  | nil => simp
  | cons cell cells ih =>
    obtain ⟨a, v⟩ := cell
    obtain ⟨-, next, hcell, hrest⟩ := h
    rw [List.map_cons, List.forall_mem_cons]
    exact ⟨(List.getElem?_eq_some_iff.mp hcell).1, ih hrest⟩

theorem Chain.allocate (h : Chain memory start cells stop) (more : Memory α) :
    Chain (memory ++ more) start cells stop := by
  induction cells generalizing start with
  | nil => exact h
  | cons cell cells ih =>
    obtain ⟨a, v⟩ := cell
    obtain ⟨hstart, next, hcell, hrest⟩ := h
    have hlt := (List.getElem?_eq_some_iff.mp hcell).1
    refine ⟨hstart, next, ?_, ih hrest⟩
    rw [List.getElem?_append_left hlt, hcell]

/-- A cell that a chain does not visit may be written. -/
theorem Chain.set (h : Chain memory start cells stop) {a : ℕ} (ha : a ∉ cells.map Prod.fst)
    (cell : Cell α) : Chain (memory.set a cell) start cells stop := by
  induction cells generalizing start with
  | nil => exact h
  | cons first cells ih =>
    obtain ⟨b, v⟩ := first
    obtain ⟨hstart, next, hcell, hrest⟩ := h
    obtain ⟨hne, ha⟩ := List.ne_and_not_mem_of_not_mem_cons ha
    refine ⟨hstart, next, ?_, ih hrest ha⟩
    rw [List.getElem?_set_ne hne, hcell]

/-- The last cell of a chain is made to point elsewhere. -/
theorem Chain.relink {a : ℕ} {v : α} (h : Chain memory start (front ++ [(a, v)]) stop)
    (ha : a ∉ front.map Prod.fst) (stop' : Option ℕ) :
    Chain (memory.set a ⟨v, stop'⟩) start (front ++ [(a, v)]) stop' := by
  obtain ⟨hfront, hcell⟩ := chain_concat.mp h
  have hlt := (List.getElem?_eq_some_iff.mp hcell).1
  exact chain_concat.mpr ⟨hfront.set ha _, List.getElem?_set_self hlt⟩

/-- A cell in the middle of a chain is left out. -/
theorem Chain.unlink {a b : ℕ} {v w : α}
    (h : Chain memory start (front ++ (a, v) :: (b, w) :: back) stop)
    (hnodup : ((front ++ (a, v) :: (b, w) :: back).map Prod.fst).Nodup) :
    memory[a]? = some ⟨v, some b⟩ ∧ ∃ next, memory[b]? = some ⟨w, next⟩ ∧
      Chain (memory.set a ⟨v, next⟩) start (front ++ (a, v) :: back) stop := by
  have hsplit : front ++ (a, v) :: (b, w) :: back = front ++ [(a, v)] ++ (b, w) :: back := by simp
  have hjoin : front ++ (a, v) :: back = front ++ [(a, v)] ++ back := by simp
  simp only [List.map_append, List.map_cons, List.nodup_append, List.nodup_cons,
    List.mem_cons, not_or] at hnodup
  obtain ⟨-, ⟨⟨-, hback⟩, -, -⟩, hdisjoint⟩ := hnodup
  have hfront : a ∉ front.map Prod.fst := fun hmem => hdisjoint a hmem a (.inl rfl) rfl
  rw [hsplit, chain_append] at h
  obtain ⟨mid, hleft, rfl, next, hcell, hright⟩ := h
  refine ⟨(chain_concat.mp hleft).2, next, hcell, ?_⟩
  rw [hjoin, chain_append]
  exact ⟨next, hleft.relink hfront next, hright.set hback _⟩

end LinkedCells
